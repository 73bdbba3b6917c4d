import Mathlib.Algebra.Order.Ring.Nat
import Octo.Store.Models

/-!
# Amounts and operation ids as text

The string functions of the ingest crate: `amount::to_stroops`, which reads a Horizon decimal
amount as an integer number of stroops, and `decode_toid`, which takes a Horizon operation id
apart.  Both work on digits only; `parseI64` is `str::parse::<i64>`, which also takes a sign, and
`trim` is `str::trim` (Unicode `White_Space`).
-/

namespace Octo

open List

/-! ### Characters and numbers -/

def isAsciiDigit (c : Char) : Bool := 48 ≤ c.toNat && c.toNat ≤ 57

def isWhitespace (c : Char) : Bool :=
  let n := c.toNat
  (9 ≤ n && n ≤ 13) || n == 0x20 || n == 0x85 || n == 0xA0 || n == 0x1680
    || (0x2000 ≤ n && n ≤ 0x200A) || n == 0x2028 || n == 0x2029 || n == 0x202F || n == 0x205F
    || n == 0x3000

def trim (s : List Char) : List Char :=
  ((s.dropWhile isWhitespace).reverse.dropWhile isWhitespace).reverse

variable {s : String} {t : Toid}

theorem dropWhile_of_visible {s : List Char} (h : ∀ c ∈ s, isWhitespace c = false) :
    s.dropWhile isWhitespace = s := by
  cases s with
  | nil => rfl
  | cons c => rw [dropWhile_cons, h c mem_cons_self]; rfl

theorem trim_append {t w : List Char} (ht : ∀ c ∈ t, isWhitespace c = false)
    (hw : ∀ c ∈ w, isWhitespace c = true) : trim (t ++ w) = t := by
  have hback : (w.reverse ++ t.reverse).dropWhile isWhitespace = t.reverse := by
    rw [dropWhile_append_of_pos (fun c hc => hw c (mem_reverse.mp hc)),
      dropWhile_of_visible (fun c hc => ht c (mem_reverse.mp hc))]
  unfold trim
  cases t with
  | nil =>
    rw [nil_append, ← append_nil w, dropWhile_append_of_pos hw]
    rfl
  | cons =>
    rw [cons_append, dropWhile_cons_of_neg (by simp [ht]), ← cons_append, reverse_append, hback,
      reverse_reverse]

theorem trim_of_visible {s : List Char} (h : ∀ c ∈ s, isWhitespace c = false) : trim s = s := by
  simpa using trim_append h (w := []) (by simp)

def decimalValue (s : List Char) : Nat :=
  s.foldl (fun n c => 10 * n + (c.toNat - 48)) 0

def isDigits (s : List Char) : Bool := !s.isEmpty && s.all isAsciiDigit

/-- `str::parse::<i64>`: an optional sign, then digits, within range. -/
def parseI64 (s : List Char) : Option Int :=
  match s with
  | '-' :: ds =>
    if isDigits ds && decide (decimalValue ds ≤ 9223372036854775808) then
      some (-(decimalValue ds : Int))
    else none
  | '+' :: ds =>
    if isDigits ds && decide ((decimalValue ds : Int) ≤ i64Max) then some (decimalValue ds)
    else none
  | ds =>
    if isDigits ds && decide ((decimalValue ds : Int) ≤ i64Max) then some (decimalValue ds)
    else none

/-- `str::parse` at an unsigned type: an optional plus, then digits, up to the largest value. -/
def parseUnsigned (largest : Nat) (s : List Char) : Option Nat :=
  let ds := match s with
    | '+' :: ds => ds
    | ds => ds
  if isDigits ds && decide (decimalValue ds ≤ largest) then some (decimalValue ds) else none

/-- `HeaderValue::to_str`: visible ASCII and tabs. -/
def headerToStr (value : String) : Option (List Char) :=
  if value.toList.all (fun c => (32 ≤ c.toNat && c.toNat < 127) || c == '\t') then some value.toList
    else none

/-! ### Amounts -/

def stroopsPerUnit : Int := 10000000
def decimals : Nat := 7

/-- `str::split_once('.')`, the whole string and nothing when there is no point. -/
def splitPoint (s : List Char) : List Char × List Char :=
  (s.takeWhile (· != '.'), (s.dropWhile (· != '.')).drop 1)

/-- `i64::checked_mul` and `i64::checked_add`, for non-negative operands. -/
def checked (n : Int) : Option Int := if n ≤ i64Max then some n else none

def toStroops (amount : String) : Option Int :=
  let amount := trim amount.toList
  if amount.isEmpty || amount.head? == some '-' then none
  else
    let (intPart, fracPart) := splitPoint amount
    -- more than seven fraction digits is rejected, never truncated
    if !intPart.all isAsciiDigit || !fracPart.all isAsciiDigit || decimals < fracPart.length
      then none
    else do
      let intVal ← parseI64 intPart
      let fracVal ← parseI64 (fracPart ++ List.replicate (decimals - fracPart.length) '0')
      let units ← checked (intVal * stroopsPerUnit)
      checked (units + fracVal)

/-! ### Operation ids -/

structure Toid where
  ledger : Nat
  txOrder : Nat
  operationIndex : Int
  deriving DecidableEq

def maxOpsPerTx : Nat := 100

def stellarGenesisUnix : Nat := 1443571200
def ledgerCeilingFloor : Nat := 323654400
def u32Max : Nat := 4294967295

/-- `plausible_max_ledger`, for a host clock reading of `now` unix seconds. -/
def plausibleMaxLedger (now : Nat) : Nat :=
  max (min (now - stellarGenesisUnix) u32Max) ledgerCeilingFloor

/-- The fields of a packed TOID, if they are in range: 32 bits ledger, 20 bits transaction
order, 12 bits operation order. -/
def unpackToid (packed maxLedger : Nat) : Option Toid :=
  let ledger := packed / 2 ^ 32
  let txOrder := packed / 2 ^ 12 % 2 ^ 20
  let opOrder := packed % 2 ^ 12
  if ledger == 0 || maxLedger < ledger || txOrder == 0 then none
  else if opOrder == 0 || maxOpsPerTx < opOrder then none
  else some ⟨ledger, txOrder, opOrder - 1⟩

def decodeToid (toid : String) (maxLedger : Nat) : Option Toid :=
  if !isDigits toid.toList then none
  else
    match parseI64 toid.toList with
    | some packed => unpackToid packed.toNat maxLedger
    | none => none

def tokenValue (token : String) : Nat := decimalValue token.toList

theorem isDigits_parse {s : List Char} (h : isDigits s = true) :
    parseI64 s = if (decimalValue s : Int) ≤ i64Max then some (decimalValue s : Int) else none := by
  unfold parseI64
  split
  · simp [isDigits, isAsciiDigit] at h
  · simp [isDigits, isAsciiDigit] at h
  · simp [h]

theorem unpackToid_eq_some {packed maxLedger : Nat} : unpackToid packed maxLedger = some t ↔
      0 < packed / 2 ^ 32 ∧ packed / 2 ^ 32 ≤ maxLedger ∧ 0 < packed / 2 ^ 12 % 2 ^ 20 ∧
        0 < packed % 2 ^ 12 ∧ packed % 2 ^ 12 ≤ maxOpsPerTx ∧
        t = ⟨packed / 2 ^ 32, packed / 2 ^ 12 % 2 ^ 20, (packed % 2 ^ 12 : Nat) - 1⟩ := by
  simp only [unpackToid, beq_iff_eq, Bool.or_eq_true, decide_eq_true_eq]
  constructor
  · intro h
    split at h
    · cases h
    · split at h
      · cases h
      · refine ⟨by omega, by omega, by omega, by omega, by omega, (Option.some.inj h).symm⟩
  · rintro ⟨h1, h2, h3, h4, h5, rfl⟩
    rw [if_neg (by omega), if_neg (by omega)]

theorem decodeToid_eq_some {maxLedger : Nat} (h : decodeToid s maxLedger = some t) :
    isDigits s.toList = true ∧ unpackToid (tokenValue s) maxLedger = some t := by
  unfold decodeToid at h
  split at h
  · cases h
  · rename_i hd
    simp only [Bool.not_eq_true', Bool.not_eq_false] at hd
    rw [isDigits_parse hd] at h
    split at h
    · rename_i hp
      split at hp
      · rw [← Option.some.inj hp] at h
        exact ⟨hd, h⟩
      · cases hp
    · cases h

theorem decodeToid_mono {m m' : Nat} (hm : m ≤ m') (h : decodeToid s m = some t) :
    decodeToid s m' = some t := by
  unfold decodeToid at h ⊢
  split at h
  · cases h
  · rename_i hd
    rw [if_neg hd]
    split at h
    · rw [unpackToid_eq_some] at h
      exact unpackToid_eq_some.mpr ⟨h.1, le_trans h.2.1 hm, h.2.2⟩
    · cases h

theorem decodeToid_index {m : Nat} (h : decodeToid s m = some t) :
    t.operationIndex + 1 = (tokenValue s % 2 ^ 12 : Nat) := by
  have h := unpackToid_eq_some.mp (decodeToid_eq_some h).2
  obtain ⟨-, -, -, -, -, rfl⟩ := h
  show ((tokenValue s % 2 ^ 12 : Nat) : Int) - 1 + 1 = _
  omega

theorem plausibleMaxLedger_mono {a b : Nat} (h : a ≤ b) :
    plausibleMaxLedger a ≤ plausibleMaxLedger b := by
  unfold plausibleMaxLedger
  omega

end Octo
