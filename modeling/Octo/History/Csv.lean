import Octo.Codec.Csv
import Octo.Wallet.Envelope

/-!
# The CSV export of a wallet's history

`crates/api/src/routes/transactions_csv.rs`: one line for each transaction.  A text cell that a
spreadsheet would take for a formula gets an apostrophe in front, and a cell with separators, quotes
or line breaks is quoted.  Times are written as `chrono`'s `to_rfc3339` writes them, and ids as
`uuid` does.
-/

namespace Octo.History

open Csv List

structure Transaction where
  id : Uuid
  walletId : Uuid
  addressId : Option Uuid
  direction : String
  assetCode : String
  assetIssuer : Option String
  amountStroops : Int
  sourceAccount : Option String
  destinationAccount : Option String
  stellarTxHash : Option String
  operationIndex : Option Int
  ledger : Option Int
  memoId : Option Int
  status : String
  reference : Option String
  createdAt : Time
  deriving DecidableEq

/-! ### Numbers, ids and times -/

def intText (n : Int) : List Char := (toString n).toList

def uuidText (id : Uuid) : List Char :=
  let digits (hi lo : Nat) : List Char :=
    (List.range (hi - lo)).map (fun i => hexDigit (id / 16 ^ (hi - 1 - i) % 16))
  digits 32 24 ++ '-' :: digits 24 20 ++ '-' :: digits 20 16 ++ '-' :: digits 16 12 ++ '-' ::
    digits 12 0

def padded (width n : Nat) : List Char :=
  List.replicate (width - (Nat.toDigits 10 n).length) '0' ++ Nat.toDigits 10 n

/-- The year, month and day of a day after 1970-01-01, in the Gregorian calendar. -/
def civilDate (days : Nat) : Nat × Nat × Nat :=
  -- counted in eras of 400 years, from 1 March of a year divisible by 400
  let z := days + 719468
  let dayOfEra := z % 146097
  let yearOfEra := (dayOfEra - dayOfEra / 1460 + dayOfEra / 36524 - dayOfEra / 146096) / 365
  let dayOfYear := dayOfEra - (365 * yearOfEra + yearOfEra / 4 - yearOfEra / 100)
  let m := (5 * dayOfYear + 2) / 153
  let day := dayOfYear - (153 * m + 2) / 5 + 1
  let month := if m < 10 then m + 3 else m - 9
  let year := yearOfEra + z / 146097 * 400
  (if month ≤ 2 then year + 1 else year, month, day)

/-- The year of `to_rfc3339`: four digits, or a sign and more. -/
def yearText (year : Nat) : List Char := if year ≤ 9999 then padded 4 year else '+' :: padded 4 year

/-- The fraction of a second: as many groups of three digits as it takes. -/
def fractionText (micros : Nat) : List Char :=
  if micros = 0 then []
  else if micros % 1000 = 0 then '.' :: padded 3 (micros / 1000)
  else '.' :: padded 6 micros

def toRfc3339 (t : Time) : List Char :=
  let seconds := t / 1000000
  let (year, month, day) := civilDate (seconds / 86400)
  let ofDay := seconds % 86400
  yearText year ++ '-' :: padded 2 month ++ '-' :: padded 2 day ++ 'T' :: padded 2 (ofDay / 3600) ++
    ':' :: padded 2 (ofDay / 60 % 60) ++ ':' :: padded 2 (ofDay % 60) ++ fractionText
      (t % 1000000) ++ "+00:00".toList

example : toRfc3339 1767225600123000 = "2026-01-01T00:00:00.123+00:00".toList := by decide

example :
    uuidText 0x00112233445566778899aabbccddeeff =
      "00112233-4455-6677-8899-aabbccddeeff".toList := by
  decide

/-! ### Cells -/

def formulaStarts : List Char := ['=', '+', '-', '@', '\t', '\r']

def neutralised : List Char → List Char
  | [] => []
  | c :: value => if c ∈ formulaStarts then '\x27' :: c :: value else c :: value

def textCell (value : String) : List Char :=
  let cell := neutralised value.toList
  if cell.any (fun c => [',', '"', '\n', '\r'].contains c) then '"' :: doubled cell ++ ['"']
    else cell

def num : Option Int → List Char
  | some n => intText n
  | none => []

def cells (tx : Transaction) : List (List Char) :=
  [uuidText tx.id,
   toRfc3339 tx.createdAt,
   textCell tx.direction,
   textCell tx.status,
   textCell tx.assetCode,
   textCell (tx.assetIssuer.getD ""),
   intText tx.amountStroops,
   textCell (tx.sourceAccount.getD ""),
   textCell (tx.destinationAccount.getD ""),
   textCell (tx.stellarTxHash.getD ""),
   num tx.operationIndex,
   num tx.ledger,
   num tx.memoId,
   (tx.addressId.map uuidText).getD [],
   textCell (tx.reference.getD "")]

def writeRow (tx : Transaction) : List Char := joined (cells tx) ++ "\r\n".toList

def headerRow : List Char :=
  ("id,created_at,direction,status,asset_code,asset_issuer,amount_stroops,source_account," ++
    "destination_account,stellar_tx_hash,operation_index,ledger,memo_id,address_id,reference\r\n"
    ).toList

def exportText (txs : List Transaction) : List Char := headerRow ++ txs.flatMap writeRow

/-! ### Every cell is an encoded field -/

theorem isPlain_of_isDigit {c : Char} (h : c.isDigit = true) : isPlain c = true := by
  refine isPlain_iff.mpr ⟨?_, ?_, ?_, ?_⟩ <;> rintro rfl <;> revert h <;> decide

theorem plain_toDigits (n : Nat) : Plain (Nat.toDigits 10 n) :=
  fun _ hc => isPlain_of_isDigit (Nat.isDigit_of_mem_toDigits (by decide) (by decide) hc)

theorem plain_padded (width n : Nat) : Plain (padded width n) := by
  refine plain_append.mpr ⟨fun c hc => ?_, plain_toDigits n⟩
  rw [eq_of_mem_replicate hc]
  decide

theorem plain_intText (n : Int) : Plain (intText n) := by
  rw [intText, Int.toString_eq_repr, Int.repr_eq_if]
  split
  · rw [Nat.toList_repr]
    exact plain_toDigits _
  · rw [String.toList_append, Nat.toList_repr]
    exact plain_append.mpr ⟨by decide, plain_toDigits _⟩

theorem isPlain_hexDigit (n : Nat) : isPlain (hexDigit n) = true := by
  unfold hexDigit
  by_cases h : n < 16
  · have small : ∀ m < 16, isPlain ("0123456789abcdef".toList.getD m '0') = true := by decide
    exact small n h
  · rw [getD_eq_getElem?_getD, getElem?_eq_none (by simpa using h)]
    decide

theorem plain_uuidText (id : Uuid) : Plain (uuidText id) := by
  have hdigits : ∀ n (f : Nat → Nat), Plain ((range n).map (fun i => hexDigit (f i))) := by
    intro n f c hc
    obtain ⟨i, -, rfl⟩ := mem_map.mp hc
    exact isPlain_hexDigit _
  have hdash : isPlain '-' = true := by decide
  simp [uuidText, hdigits, hdash]

theorem plain_toRfc3339 (t : Time) : Plain (toRfc3339 t) := by
  have hyear : ∀ y, Plain (yearText y) := by
    intro y
    unfold yearText
    split
    · exact plain_padded 4 y
    · exact plain_cons.mpr ⟨by decide, plain_padded 4 y⟩
  have hfraction : ∀ m, Plain (fractionText m) := by
    intro m
    unfold fractionText
    split
    · exact plain_nil
    · split
      · exact plain_cons.mpr ⟨by decide, plain_padded _ _⟩
      · exact plain_cons.mpr ⟨by decide, plain_padded _ _⟩
  have hzone : Plain "+00:00".toList := by decide
  have hmarks : isPlain '-' = true ∧ isPlain 'T' = true ∧ isPlain ':' = true := by decide
  simp only [toRfc3339, plain_append, plain_cons, hyear, plain_padded, hfraction, hzone, hmarks,
    and_self]

theorem encodes_num (n : Option Int) : Encodes (num n) (num n) := by
  cases n with
  | none => exact .plain plain_nil
  | some n => exact .plain (plain_intText n)

theorem encodes_textCell (value : String) :
    Encodes (textCell value) (neutralised value.toList) := by
  unfold textCell
  by_cases h : (neutralised value.toList).any (fun c => [',', '"', '\n', '\r'].contains c) = true
  · simp only [h]
    exact .quoted _
  · simp only [h]
    refine .plain (fun c hc => ?_)
    have hno : ¬ [',', '"', '\n', '\r'].contains c = true :=
      fun hin => h (any_eq_true.mpr ⟨c, hc, hin⟩)
    refine isPlain_iff.mpr ⟨?_, ?_, ?_, ?_⟩ <;> rintro rfl <;> exact hno (by decide)

def fields (tx : Transaction) : List (List Char) :=
  [uuidText tx.id,
   toRfc3339 tx.createdAt,
   neutralised tx.direction.toList,
   neutralised tx.status.toList,
   neutralised tx.assetCode.toList,
   neutralised (tx.assetIssuer.getD "").toList,
   intText tx.amountStroops,
   neutralised (tx.sourceAccount.getD "").toList,
   neutralised (tx.destinationAccount.getD "").toList,
   neutralised (tx.stellarTxHash.getD "").toList,
   num tx.operationIndex,
   num tx.ledger,
   num tx.memoId,
   (tx.addressId.map uuidText).getD [],
   neutralised (tx.reference.getD "").toList]

theorem encodes_cells (tx : Transaction) : List.Forall₂ Encodes (cells tx) (fields tx) := by
  have haddress : Encodes ((tx.addressId.map uuidText).getD [])
      ((tx.addressId.map uuidText).getD []) := by
    cases tx.addressId with
    | none => exact .plain plain_nil
    | some a => exact .plain (plain_uuidText a)
  unfold cells fields
  simp only [forall₂_cons, List.Forall₂.nil, encodes_textCell, encodes_num, haddress, and_true,
    true_and]
  exact ⟨.plain (plain_uuidText _), .plain (plain_toRfc3339 _), .plain (plain_intText _)⟩

def columns : List String :=
  ["id", "created_at", "direction", "status", "asset_code", "asset_issuer", "amount_stroops",
    "source_account",
   "destination_account", "stellar_tx_hash", "operation_index", "ledger", "memo_id", "address_id",
   "reference"]

theorem headerRow_eq : headerRow = line (columns.map String.toList) := by decide +kernel

theorem plain_columns : ∀ name ∈ columns, Plain name.toList := by decide +kernel

theorem read_exportText (txs : List Transaction) :
    read (exportText txs) = some (columns.map String.toList :: txs.map fields) := by
  have htext : exportText txs = (columns.map String.toList :: txs.map cells).flatMap line := by
    rw [exportText, headerRow_eq, flatMap_cons, flatMap_map]
    rfl
  rw [htext]
  refine read_lines (.cons ⟨cons_ne_nil _ _, ?_⟩ ?_)
  · refine forall₂_same.mpr (fun name hname => ?_)
    obtain ⟨column, hcolumn, rfl⟩ := mem_map.mp hname
    exact .plain (plain_columns column hcolumn)
  · rw [forall₂_map_left_iff, forall₂_map_right_iff, forall₂_same]
    exact fun tx _ => ⟨cons_ne_nil _ _, encodes_cells tx⟩

/-! ### Text columns -/

/-- The text columns of a row with their positions; a missing value is written as an empty one. -/
def textColumns (tx : Transaction) : List (Nat × String) :=
  [(2, tx.direction), (3, tx.status), (4, tx.assetCode), (5, tx.assetIssuer.getD ""),
    (7, tx.sourceAccount.getD ""),
   (8, tx.destinationAccount.getD ""), (9, tx.stellarTxHash.getD ""), (14, tx.reference.getD "")]

/-- The value begins with `=`, `+`, `-`, `@`, a tab or a carriage return. -/
def StartsFormula (value : List Char) : Prop :=
  ∃ c ∈ ['=', '+', '-', '@', '\t', '\r'], ∃ rest, value = c :: rest

/-- The field is the value, with an apostrophe in front exactly if the value begins like a formula.
-/
structure Neutral (value field : List Char) : Prop where
  formula : StartsFormula value → field = '\x27' :: value
  plain : ¬ StartsFormula value → field = value
  safe : ¬ StartsFormula field

theorem neutral_neutralised (value : List Char) : Neutral value (neutralised value) := by
  cases value with
  | nil =>
    have hno : ¬ StartsFormula [] := fun ⟨_, _, _, h⟩ => by cases h
    exact ⟨fun h => absurd h hno, fun _ => rfl, hno⟩
  | cons c rest =>
    have hiff : StartsFormula (c :: rest) ↔ c ∈ formulaStarts := by
      constructor
      · rintro ⟨c', hc', _, h⟩
        exact (cons.inj h).1 ▸ hc'
      · exact fun hc => ⟨c, hc, rest, rfl⟩
    by_cases hc : c ∈ formulaStarts
    · have hcell : neutralised (c :: rest) = '\x27' :: c :: rest := if_pos hc
      rw [hcell]
      refine ⟨fun _ => rfl, fun h => absurd (hiff.mpr hc) h, ?_⟩
      rintro ⟨c', hc', _, h⟩
      obtain rfl := (cons.inj h).1
      revert hc'
      decide
    · have hcell : neutralised (c :: rest) = c :: rest := if_neg hc
      rw [hcell]
      exact ⟨fun h => absurd (hiff.mp h) hc, fun _ => rfl, fun h => hc (hiff.mp h)⟩

/-- The record has a field for each of the 15 columns, and neutral fields for those with text. -/
structure ReadsAs (tx : Transaction) (record : List (List Char)) : Prop where
  length : record.length = 15
  text : ∀ column ∈ textColumns tx, ∃ field, record[column.1]? = some field ∧
    Neutral column.2.toList field

theorem readsAs_fields (tx : Transaction) : ReadsAs tx (fields tx) := by
  refine ⟨rfl, fun column hcolumn => ⟨neutralised column.2.toList, ?_, neutral_neutralised _⟩⟩
  simp only [textColumns, mem_cons, not_mem_nil, or_false] at hcolumn
  rcases hcolumn with rfl | rfl | rfl | rfl | rfl | rfl | rfl | rfl <;> rfl

/-- **The export is safe and parses back.**  Read as RFC 4180 has it, the text is the header and one
record of 15 fields for each transaction, whose text fields are the values of the row with an
apostrophe in front of those, and only of those, that begin like a formula. -/
theorem export_parses_back (txs : List Transaction) :
    ∃ records, read (exportText txs) = some (columns.map String.toList :: records) ∧
      List.Forall₂ ReadsAs txs records := by
  refine ⟨txs.map fields, read_exportText txs, ?_⟩
  rw [List.forall₂_map_right_iff, List.forall₂_same]
  exact fun tx _ => readsAs_fields tx

end Octo.History
