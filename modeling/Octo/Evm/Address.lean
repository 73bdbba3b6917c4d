import Octo.Api.Amount
import Octo.Crypto.Seal

/-!
# Ethereum addresses

`crates/evm-core/src/address.rs`: the text of an address is 40 hex digits, and the case of its
letters may carry a checksum, a bit of the keccak-256 hash of the lower-case text for each of them.
keccak-256 is a parameter.
-/

namespace Octo.Evm

open Crypto Octo.Api

def addressLength : Nat := 20

def addressHexLength : Nat := addressLength * 2

structure Address where
  bytes : Bytes
  length_eq : bytes.length = addressLength
  deriving DecidableEq

inductive AddressError
  | invalidLength (len : Nat)
  | invalidCharacter (ch : Char)
  | invalidChecksum
  deriving DecidableEq

abbrev Keccak := Bytes → Vector UInt8 32

def nibbles (bytes : Bytes) : List UInt8 := bytes.flatMap (fun b : UInt8 => [b >>> 4, b &&& 0x0f])

def Address.toLowercaseHex (a : Address) : List Char :=
  (nibbles a.bytes).map (fun n => n.toNat.digitChar)

def Address.toChecksumHex (keccak : Keccak) (a : Address) : List Char :=
  let hash := (keccak (utf8 (String.ofList a.toLowercaseHex))).toList
  a.toLowercaseHex.mapIdx (fun i ch =>
    let nibble := if i % 2 = 0 then hash.getD (i / 2) 0 >>> 4 else hash.getD (i / 2) 0 &&& 0x0f
    if nibble ≥ 8 then ch.toUpper else ch)

def isLowerHex (ch : Char) : Bool := 'a' ≤ ch && ch ≤ 'f'

def isUpperHex (ch : Char) : Bool := 'A' ≤ ch && ch ≤ 'F'

def hexValue (ch : Char) : Option UInt8 :=
  if '0' ≤ ch && ch ≤ '9' then some (ch.toNat - '0'.toNat).toUInt8
  else if isLowerHex ch then some (ch.toNat - 'a'.toNat + 10).toUInt8
  else if isUpperHex ch then some (ch.toNat - 'A'.toNat + 10).toUInt8
  else none

def parseDigits : List Char → Nat → Bytes → Bool → Bool → Except AddressError (Bytes × Bool × Bool)
  | [], _, bytes, hasUpper, hasLower => .ok (bytes, hasUpper, hasLower)
  | ch :: rest, i, bytes, hasUpper, hasLower =>
    match hexValue ch with
    | none => .error (.invalidCharacter ch)
    | some value =>
      let bytes := if i % 2 = 0 then bytes.set (i / 2) (value <<< 4) else bytes.set (i / 2)
        (bytes.getD (i / 2) 0 ||| value)
      parseDigits rest (i + 1) bytes (hasUpper || isUpperHex ch) (hasLower || isLowerHex ch)

open List

variable {vs : List UInt8} {s : List Char} {r : Bytes × Bool × Bool} {u l : Bool} {i : Nat}

theorem parseDigits_length {bytes : Bytes} (h : parseDigits s i bytes u l = .ok r) :
    r.1.length = bytes.length := by
  induction s generalizing i bytes u l with
  | nil => rw [← Except.ok.inj h]
  | cons ch rest ih =>
    unfold parseDigits at h
    split at h
    · cases h
    · rw [ih h]
      split <;> simp

def stripHexPrefix : List Char → List Char
  | '0' :: 'x' :: rest => rest
  | '0' :: 'X' :: rest => rest
  | s => s

def validateHex (keccak : Keccak) (hex : List Char) : Except AddressError Address :=
  if byteLength hex ≠ addressHexLength then .error (.invalidLength (byteLength hex))
  else
    match h : parseDigits hex 0 (List.replicate addressLength 0) false false with
    | .error e => .error e
    | .ok (bytes, hasUpper, hasLower) =>
      let address : Address := ⟨bytes, (parseDigits_length h).trans List.length_replicate⟩
      if hasUpper && hasLower && hex ≠ address.toChecksumHex keccak then .error .invalidChecksum
        else .ok address

def validateAddress (keccak : Keccak) (input : String) : Except AddressError Address :=
  validateHex keccak (stripHexPrefix input.toList)

/-! ### The digits -/

def pack : List UInt8 → Bytes
  | hi :: lo :: rest => (hi <<< 4 ||| lo) :: pack rest
  | _ => []

def IsHexOf (digits : List Char) (a : Address) : Prop :=
  digits.map hexValue = (nibbles a.bytes).map some

def Mixed (digits : List Char) : Prop := digits.any isUpperHex = true ∧ digits.any isLowerHex = true

theorem byte_halves (b : UInt8) : (b >>> 4) <<< 4 ||| (b &&& 0x0f) = b := by
  have h : ∀ n : Fin 256, (UInt8.ofFin n >>> 4) <<< 4 ||| (UInt8.ofFin n &&& 0x0f) =
      UInt8.ofFin n := by decide +kernel
  exact h b.toFin

theorem nibble_lt (b : UInt8) : b >>> 4 < 16 ∧ b &&& 0x0f < 16 := by
  have h : ∀ n : Fin 256, UInt8.ofFin n >>> 4 < 16 ∧ UInt8.ofFin n &&& 0x0f < 16 := by
    decide +kernel
  exact h b.toFin

theorem halves_byte {hi lo : UInt8} (hhi : hi < 16) (hlo : lo < 16) :
    (hi <<< 4 ||| lo) >>> 4 = hi ∧ (hi <<< 4 ||| lo) &&& 0x0f = lo := by
  have h : ∀ m n : Fin 16, let hi := UInt8.ofNat m; let lo := UInt8.ofNat n
      (hi <<< 4 ||| lo) >>> 4 = hi ∧ (hi <<< 4 ||| lo) &&& 0x0f = lo := by decide +kernel
  have h' := h ⟨hi.toNat, hhi⟩ ⟨lo.toNat, hlo⟩
  simpa only [UInt8.ofNat_toNat] using h'

theorem hexValue_spec {ch : Char} {v : UInt8} (h : hexValue ch = some v) :
    v < 16 ∧ ch.utf8Size = 1 := by
  have hall : ∀ n : Fin 128, (hexValue (Char.ofNat n)).all (fun v => decide (v < 16)) = true ∧
      (Char.ofNat n).utf8Size = 1 := by decide +kernel
  have hle : ch.toNat < 128 := by
    unfold hexValue isLowerHex isUpperHex at h
    simp only [Bool.and_eq_true, decide_eq_true_eq] at h
    split at h
    · rename_i hc
      exact Nat.lt_of_le_of_lt hc.2 (by decide)
    · split at h
      · rename_i hc
        exact Nat.lt_of_le_of_lt hc.2 (by decide)
      · split at h
        · rename_i hc
          exact Nat.lt_of_le_of_lt hc.2 (by decide)
        · cases h
  have hch := hall ⟨ch.toNat, hle⟩
  rw [Char.ofNat_toNat] at hch
  rw [h] at hch
  exact ⟨of_decide_eq_true hch.1, hch.2⟩

theorem digitChar_spec {n : UInt8} (h : n < 16) :
    hexValue n.toNat.digitChar = some n ∧ hexValue n.toNat.digitChar.toUpper = some n ∧
      isUpperHex n.toNat.digitChar = false ∧ isLowerHex n.toNat.digitChar.toUpper = false := by
  have hall : ∀ n : Fin 16, let n := UInt8.ofNat n
      hexValue n.toNat.digitChar = some n ∧ hexValue n.toNat.digitChar.toUpper = some n ∧
        isUpperHex n.toNat.digitChar = false ∧ isLowerHex n.toNat.digitChar.toUpper = false := by
      decide +kernel
  have h' := hall ⟨n.toNat, h⟩
  simpa only [UInt8.ofNat_toNat] using h'

variable (bytes : Bytes)

theorem pack_nibbles : pack (nibbles bytes) = bytes := by
  induction bytes with
  | nil => rfl
  | cons b bytes ih =>
    show ((b >>> 4) <<< 4 ||| (b &&& 0x0f)) :: pack (nibbles bytes) = _
    rw [byte_halves, ih]

theorem nibbles_lt : ∀ n ∈ nibbles bytes, n < 16 := by
  intro n hn
  obtain ⟨b, -, hb⟩ := mem_flatMap.mp hn
  simp only [mem_cons, not_mem_nil, or_false] at hb
  rcases hb with rfl | rfl
  · exact (nibble_lt b).1
  · exact (nibble_lt b).2

theorem length_nibbles : (nibbles bytes).length = 2 * bytes.length := by
  induction bytes with
  | nil => rfl
  | cons b bytes =>
    show (nibbles bytes).length + 2 = 2 * (bytes.length + 1)
    omega

/-! ### The loop -/

theorem digits_of_parseDigits {bytes : Bytes}
    (h : parseDigits s i bytes u l = .ok r) : ∃ vs : List UInt8, s.map hexValue = vs.map some := by
  induction s generalizing i bytes u l with
  | nil => exact ⟨[], rfl⟩
  | cons ch rest ih =>
    unfold parseDigits at h
    split at h
    · cases h
    · rename_i v hv
      obtain ⟨vs, hvs⟩ := ih h
      exact ⟨v :: vs, by rw [map_cons, map_cons, hv, hvs]⟩

theorem byteLength_of_digits (h : s.map hexValue = vs.map some) : byteLength s = s.length := by
  induction s generalizing vs with
  | nil => rfl
  | cons ch rest ih =>
    cases vs with
    | nil => cases h
    | cons =>
      obtain ⟨hv, hrest⟩ := cons.inj h
      show ch.utf8Size + byteLength rest = rest.length + 1
      rw [ih hrest, (hexValue_spec hv).2, Nat.add_comm]

theorem digit_pair {k : Nat} (h : s.map hexValue = vs.map some)
    (hlen : s.length = 2 * (k + 1)) : ∃ c d rest v w ws, s = c :: d :: rest ∧ vs = v :: w :: ws ∧
      hexValue c = some v ∧ hexValue d = some w ∧ rest.map hexValue = ws.map some ∧
      rest.length = 2 * k := by
  match s, vs with
  | [], _ => simp at hlen
  | [_], _ => simp at hlen; omega
  | _ :: _ :: _, [] => cases h
  | _ :: _ :: _, [_] => exact nomatch (cons.inj h).2
  | c :: d :: rest, v :: w :: ws =>
    simp only [map_cons, cons.injEq] at h
    exact ⟨c, d, rest, v, w, ws, rfl, rfl, h.1, h.2.1, h.2.2, by simp at hlen; omega⟩

theorem parseDigits_eq (k : Nat) (s : List Char) (vs : List UInt8) (done : Bytes) (u l : Bool)
    (h : s.map hexValue = vs.map some) (hlen : s.length = 2 * k) :
    parseDigits s (2 * done.length) (done ++ replicate k 0) u l =
      .ok (done ++ pack vs, u || s.any isUpperHex, l || s.any isLowerHex) := by
  induction k generalizing s vs done u l with
  | zero =>
    obtain rfl := length_eq_zero_iff.mp hlen
    obtain rfl := map_eq_nil_iff.mp h.symm
    simp [parseDigits, pack]
  | succ k ih =>
    obtain ⟨c, d, rest, v, w, ws, rfl, rfl, hc, hd, hrest, hlen⟩ := digit_pair h hlen
    have hnext := ih rest ws (done ++ [v <<< 4 ||| w]) (u || isUpperHex c || isUpperHex d)
      (l || isLowerHex c || isLowerHex d) hrest hlen
    have hodd : ¬(2 * done.length + 1) % 2 = 0 := by omega
    have hhalf : (2 * done.length + 1) / 2 = done.length := by omega
    have hindex : 2 * (done ++ [v <<< 4 ||| w]).length = 2 * done.length + 1 + 1 := by simp; omega
    rw [hindex] at hnext
    simp only [parseDigits, hc, hd, hodd, hhalf, Nat.mul_mod_right, if_true, if_false,
      replicate_succ, Nat.mul_div_cancel_left done.length (show 0 < 2 by decide)]
    have hget : (done ++ v <<< 4 :: replicate k 0).getD done.length 0 = v <<< 4 := by simp
    rw [set_append_right _ _ (Nat.le_refl _), Nat.sub_self, set_cons_zero, hget,
      set_append_right _ _ (Nat.le_refl _), Nat.sub_self, set_cons_zero]
    simp only [append_assoc, singleton_append] at hnext
    rw [hnext]
    simp [pack, Bool.or_assoc]

theorem nibbles_pack (k : Nat) (h : s.map hexValue = vs.map some)
    (hlen : s.length = 2 * k) : nibbles (pack vs) = vs := by
  induction k generalizing s vs with
  | zero =>
    obtain rfl := length_eq_zero_iff.mp hlen
    obtain rfl := map_eq_nil_iff.mp h.symm
    rfl
  | succ k ih =>
    obtain ⟨c, d, _, v, w, ws, rfl, rfl, hc, hd, hrest, hlen⟩ := digit_pair h hlen
    obtain ⟨hhi, hlo⟩ := halves_byte (hexValue_spec hc).1 (hexValue_spec hd).1
    show ((v <<< 4 ||| w) >>> 4) :: ((v <<< 4 ||| w) &&& 0x0f) :: nibbles (pack ws) = _
    rw [hhi, hlo, ih hrest hlen]

/-! ### What is accepted -/

/-- The digits are those of the address, and if the letters are of both cases they carry its
checksum. -/
def Writes (keccak : Keccak) (digits : List Char) (a : Address) : Prop :=
  IsHexOf digits a ∧ (¬Mixed digits ∨ digits = a.toChecksumHex keccak)

variable {keccak : Keccak} {digits : List Char} {a : Address}

theorem IsHexOf.length (h : IsHexOf digits a) : digits.length = 2 * addressLength := by
  have hlen := congrArg List.length h
  rw [length_map, length_map, length_nibbles, a.length_eq] at hlen
  exact hlen

theorem IsHexOf.parse (h : IsHexOf digits a) :
    parseDigits digits 0 (replicate addressLength 0) false false =
    .ok (a.bytes, digits.any isUpperHex, digits.any isLowerHex) := by
  have hparse := parseDigits_eq addressLength digits _ [] false false h h.length
  rw [pack_nibbles] at hparse
  exact hparse

theorem validateHex_iff {hex : List Char} :
    validateHex keccak hex = .ok a ↔ Writes keccak hex a := by
  unfold validateHex
  constructor
  · intro h
    split at h
    · cases h
    · rename_i hlen
      split at h
      · cases h
      · rename_i bytes hasUpper hasLower hparse
        obtain ⟨vs, hvs⟩ := digits_of_parseDigits hparse
        have hlen' : hex.length = 2 * addressLength :=
          (byteLength_of_digits hvs).symm.trans (not_not.mp hlen)
        have heq := parseDigits_eq addressLength hex vs [] false false hvs hlen'
        obtain ⟨rfl, rfl, rfl⟩ : bytes = pack vs ∧ hasUpper = hex.any isUpperHex ∧
            hasLower = hex.any isLowerHex := by
          simpa using Except.ok.inj (hparse.symm.trans heq)
        dsimp only at h
        split at h
        · cases h
        · rename_i hsum
          cases h
          refine ⟨?_, ?_⟩
          · rw [IsHexOf, hvs, nibbles_pack addressLength hvs hlen']
          · by_cases hmixed : Mixed hex
            · exact .inr (by simpa [hmixed.1, hmixed.2] using hsum)
            · exact .inl hmixed
  · rintro ⟨hhexof, hsum⟩
    obtain ⟨vs, hvs⟩ := digits_of_parseDigits hhexof.parse
    have hlen : byteLength hex = addressHexLength := (byteLength_of_digits hvs).trans hhexof.length
    rw [if_neg (not_not.mpr hlen)]
    split
    · rename_i he
      rw [hhexof.parse] at he
      cases he
    · rename_i bytes hasUpper hasLower hparse
      obtain ⟨rfl, rfl, rfl⟩ : bytes = a.bytes ∧ hasUpper = hex.any isUpperHex ∧
          hasLower = hex.any isLowerHex := by
        simpa using Except.ok.inj (hparse.symm.trans hhexof.parse)
      refine if_neg ?_
      rcases hsum with hmixed | hsum
      · intro h
        simp only [Bool.and_eq_true] at h
        exact hmixed h.1
      · intro h
        simp only [Bool.and_eq_true, decide_eq_true_eq] at h
        exact h.2 hsum

theorem stripHexPrefix_digits (h : IsHexOf digits a) : stripHexPrefix digits = digits := by
  have hx : ∀ (c : Char) (rest : List Char), hexValue c = none → '0' :: c :: rest ≠ digits := by
    rintro c _ hc rfl
    have hmem : hexValue c ∈ (nibbles a.bytes).map some := by
      rw [← h]
      exact mem_map_of_mem (mem_cons_of_mem _ mem_cons_self)
    obtain ⟨v, -, hv⟩ := mem_map.mp hmem
    rw [hc] at hv
    cases hv
  unfold stripHexPrefix
  split
  · exact absurd rfl (hx 'x' _ (by decide))
  · exact absurd rfl (hx 'X' _ (by decide))
  · rfl

/-- The digit of a nibble, in one case or the other. -/
theorem isHexOf_cased (f : Nat → Char → Char) (hf : ∀ i ch, f i ch = ch ∨ f i ch = ch.toUpper) :
    IsHexOf (a.toLowercaseHex.mapIdx f) a := by
  refine ext_getElem (by simp [Address.toLowercaseHex]) (fun i hi hi' => ?_)
  simp only [Address.toLowercaseHex, getElem_map, getElem_mapIdx]
  have hn : i < (nibbles a.bytes).length := by simpa using hi'
  obtain ⟨hlow, hup, -, -⟩ := digitChar_spec (nibbles_lt a.bytes _ (getElem_mem hn))
  rcases hf i ((nibbles a.bytes)[i].toNat.digitChar) with h | h
  · rw [h, hlow]
  · rw [h, hup]

theorem writes_checksum (keccak : Keccak) (a : Address) :
    Writes keccak (a.toChecksumHex keccak) a :=
  ⟨isHexOf_cased _ (fun _ _ => (ite_eq_or_eq _ _ _).symm), .inr rfl⟩

theorem writes_lowercase (keccak : Keccak) (a : Address) : Writes keccak a.toLowercaseHex a := by
  have hhex := isHexOf_cased (a := a) (fun _ ch => ch) (fun _ _ => .inl rfl)
  have hid : a.toLowercaseHex.mapIdx (fun _ ch => ch) = a.toLowercaseHex :=
    ext_getElem (by simp) (by simp)
  rw [hid] at hhex
  refine ⟨hhex, .inl (fun h => ?_)⟩
  obtain ⟨ch, hch, hup⟩ := any_eq_true.mp h.1
  obtain ⟨n, hn, rfl⟩ := mem_map.mp hch
  rw [(digitChar_spec (nibbles_lt _ _ hn)).2.2.1] at hup
  cases hup

theorem writes_uppercase (keccak : Keccak) (a : Address) :
    Writes keccak (a.toLowercaseHex.map Char.toUpper) a := by
  have hhex := isHexOf_cased (a := a) (fun _ ch => ch.toUpper) (fun _ _ => .inr rfl)
  have hmap : a.toLowercaseHex.mapIdx (fun _ ch => ch.toUpper) =
      a.toLowercaseHex.map Char.toUpper :=
    ext_getElem (by simp) (by simp)
  rw [hmap] at hhex
  refine ⟨hhex, .inl (fun h => ?_)⟩
  obtain ⟨ch, hch, hlow⟩ := any_eq_true.mp h.2
  rw [Address.toLowercaseHex, map_map] at hch
  obtain ⟨n, hn, rfl⟩ := mem_map.mp hch
  have hno := (digitChar_spec (nibbles_lt _ _ hn)).2.2.2
  simp only [Function.comp] at hlow
  rw [hno] at hlow
  cases hlow

def Prefixed (text digits : List Char) : Prop :=
  text = digits ∨ text = '0' :: 'x' :: digits ∨ text = '0' :: 'X' :: digits

theorem validate_of_writes {input : String} (hp : Prefixed input.toList digits)
    (h : Writes keccak digits a) : validateAddress keccak input = .ok a := by
  have hstrip : stripHexPrefix input.toList = digits := by
    rcases hp with hp | hp | hp
    · rw [hp, stripHexPrefix_digits h.1]
    · rw [hp]; rfl
    · rw [hp]; rfl
  rw [validateAddress, hstrip]
  exact validateHex_iff.mpr h

theorem prefixed_stripHexPrefix (text : List Char) : Prefixed text (stripHexPrefix text) := by
  unfold stripHexPrefix
  split
  · exact .inr (.inl rfl)
  · exact .inr (.inr rfl)
  · exact .inl rfl

/-! ### The checksum -/

theorem getElem?_nibbles (bytes : Bytes) (i : Nat) : (nibbles bytes)[i]? =
    bytes[i / 2]?.map (fun b : UInt8 => if i % 2 = 0 then b >>> 4 else b &&& 0x0f) := by
  induction bytes generalizing i with
  | nil => rfl
  | cons b bytes ih =>
    match i with
    | 0 | 1 => rfl
    | i + 2 =>
      show (nibbles bytes)[i]? = _
      rw [ih i, Nat.add_div_right i (by decide), Nat.add_mod_right]
      rfl

/-- A digit has an upper case form only if it is a letter. -/
theorem isUpperHex_toUpper {n : UInt8} (h : n < 16) :
    isUpperHex n.toNat.digitChar.toUpper = true ↔ 10 ≤ n := by
  have hall : ∀ n : Fin 16, let n := UInt8.ofNat n
      isUpperHex n.toNat.digitChar.toUpper = true ↔ 10 ≤ n := by decide +kernel
  have h' := hall ⟨n.toNat, h⟩
  simpa only [UInt8.ofNat_toNat] using h'

/-- The hash whose bits the letters of an address carry. -/
def Address.checksum (keccak : Keccak) (a : Address) : Bytes :=
  (keccak (utf8 (String.ofList a.toLowercaseHex))).toList

/-- **The case of a digit is a bit of the hash.** -/
theorem isUpperHex_checksum {ch : Char} {n h : UInt8}
    (hch : (a.toChecksumHex keccak)[i]? = some ch)
    (hn : (nibbles a.bytes)[i]? = some n) (hh : (nibbles (a.checksum keccak))[i]? = some h) :
    isUpperHex ch = true ↔ 10 ≤ n ∧ 8 ≤ h := by
  have hlt := nibbles_lt a.bytes n (mem_of_getElem? hn)
  have hlow : a.toLowercaseHex[i]? = some n.toNat.digitChar := by
    rw [Address.toLowercaseHex, getElem?_map, hn]
    rfl
  rw [getElem?_nibbles] at hh
  obtain ⟨b, hb, hnibble⟩ := Option.map_eq_some_iff.mp hh
  have hget : (a.checksum keccak).getD (i / 2) 0 = b := by rw [getD_eq_getElem?_getD, hb]; rfl
  rw [Address.toChecksumHex, getElem?_mapIdx, hlow] at hch
  change some (if (if i % 2 = 0 then (a.checksum keccak).getD (i / 2) 0 >>> 4
    else (a.checksum keccak).getD (i / 2) 0 &&& 0x0f) ≥ 8 then _ else _) = _ at hch
  rw [hget, hnibble] at hch
  obtain rfl := Option.some.inj hch
  split
  case isTrue hbit =>
    rw [isUpperHex_toUpper hlt]
    exact ⟨fun h => ⟨h, hbit⟩, And.left⟩
  case isFalse hbit =>
    rw [(digitChar_spec hlt).2.2.1]
    exact ⟨nofun, fun h => absurd h.2 hbit⟩

/-- **Which texts are accepted**, and as which address: every form of an address is, and in its
checksummed form a letter is upper case exactly where the hash of the lower-case text has a nibble
of 8 or more. -/
theorem validate_exact (keccak : Keccak) :
    (∀ (input : String) (a : Address), validateAddress keccak input = .ok a ↔
      ∃ digits, Prefixed input.toList digits ∧ IsHexOf digits a ∧
      (¬Mixed digits ∨ digits = a.toChecksumHex keccak)) ∧
    (∀ (a : Address) (input : String) (digits : List Char), Prefixed input.toList digits →
      (digits = a.toChecksumHex keccak ∨ digits = a.toLowercaseHex ∨
        digits = a.toLowercaseHex.map Char.toUpper) → validateAddress keccak input = .ok a) ∧
    ∀ a : Address, IsHexOf (a.toChecksumHex keccak) a ∧ ∀ (i : Nat) (ch : Char) (n h : UInt8),
      (a.toChecksumHex keccak)[i]? = some ch → (nibbles a.bytes)[i]? = some n →
      (nibbles (a.checksum keccak))[i]? = some h → (isUpperHex ch = true ↔ 10 ≤ n ∧ 8 ≤ h) := by
  refine ⟨fun input a => ⟨fun h => ?_, ?_⟩, fun a input digits hp hform => ?_, fun a => ?_⟩
  · exact ⟨_, prefixed_stripHexPrefix _, validateHex_iff.mp h⟩
  · rintro ⟨_, hp, h⟩
    exact validate_of_writes hp h
  · rcases hform with rfl | rfl | rfl
    · exact validate_of_writes hp (writes_checksum keccak a)
    · exact validate_of_writes hp (writes_lowercase keccak a)
    · exact validate_of_writes hp (writes_uppercase keccak a)
  · exact ⟨(writes_checksum keccak a).1, fun i ch n h hch hn hh => isUpperHex_checksum hch hn hh⟩

/-- The hash `8080...` makes every other letter upper case. -/
theorem validate_mixed : validateAddress (fun _ => Vector.replicate 32 0x80)
    ("0x" ++ String.ofList (List.replicate 20 ['A', 'a']).flatten) =
      .ok ⟨List.replicate 20 0xaa, rfl⟩ :=
  (validate_exact _).2.1 _ _ (List.replicate 20 ['A', 'a']).flatten (.inr (.inl (by decide)))
    (.inl (by decide))

end Octo.Evm
