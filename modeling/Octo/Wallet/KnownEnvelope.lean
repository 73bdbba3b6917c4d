import Octo.Codec.Base64
import Octo.Wallet.Envelope
import Octo.Wallet.Sep23

/-!
# Codecs that know one envelope

The XDR codec is a parameter of the development.  `Known.codec e` is a codec that reads the base64
text of one envelope `e` as the real one does, and rejects every other text; it is what concrete
executions are run with.

* `Known.fromXdrBase64`, `Known.computeInnerTxHash`: it does read that text, and hashes it as given.
-/

namespace Octo

open List

/-! ### Base64 -/

theorem base64Digit_visible (n : Nat) : isWhitespace (base64Digit n) = false := by
  by_cases h : n < 63
  · have small : ∀ m < 63, isWhitespace (base64Digit m) = false := by decide
    exact small n h
  · have hd : base64Digit n = '/' := by
      unfold base64Digit
      rw [if_neg (by omega), if_neg (by omega), if_neg (by omega), if_neg (by omega)]
    rw [hd]
    decide

theorem base64Chars_visible (bytes : List Nat) :
    ∀ c ∈ base64Chars bytes, isWhitespace c = false := by
  have pad : isWhitespace '=' = false := by decide
  induction bytes using base64Chars.induct with
  | case1 a b c rest ih => simpa [base64Chars, base64Digit_visible] using ih
  | case2 a b | case3 a => simp [base64Chars, base64Digit_visible, pad]
  | case4 => simp [base64Chars]

/-! ### One envelope -/

/-- An envelope with its XDR bytes and the hash of its signature payload. -/
structure Known where
  raw : List UInt8
  envelope : TransactionV1Envelope
  hash : List UInt8

namespace Known

variable (e : Known)

def text : String := String.ofList (base64Chars (e.raw.map (·.toNat)))

def codec : Xdr where
  fromXdrBase64 s := if s = e.text then some (.tx e.envelope) else none
  base64Decode cs := if cs = e.text.toList then some e.raw else none
  fromXdr raw := if raw = e.raw then some (.tx e.envelope) else none
  xdrBytes env := if env = .tx e.envelope then some e.raw else none
  payloadHash tx := if tx = e.envelope.tx then some e.hash else none
  fromUtf8Lossy bytes := bytes.map (fun b => Char.ofNat b.toNat)

@[simp] theorem fromXdrBase64 : e.codec.fromXdrBase64 e.text = some (.tx e.envelope) := if_pos rfl

theorem fromXdrBase64_eq_some {s : String} {env : TransactionEnvelope}
    (h : e.codec.fromXdrBase64 s = some env) : s = e.text ∧ env = .tx e.envelope := by
  unfold codec at h
  simp only at h
  split at h
  · exact ⟨‹_›, (Option.some.inj h).symm⟩
  · cases h

structure KnownTo (x : Xdr) : Prop where
  fromXdrBase64 : x.fromXdrBase64 e.text = some (.tx e.envelope)
  base64Decode : x.base64Decode e.text.toList = some e.raw
  fromXdr : x.fromXdr e.raw = some (.tx e.envelope)
  xdrBytes : x.xdrBytes (.tx e.envelope) = some e.raw
  payloadHash : x.payloadHash e.envelope.tx = some e.hash

variable {e} {e' : Known} {x y : Xdr}

theorem knownTo_codec (e : Known) : e.KnownTo e.codec :=
  ⟨if_pos rfl, if_pos rfl, if_pos rfl, if_pos rfl, if_pos rfl⟩

theorem KnownTo.parseInnerV1 (h : e.KnownTo x) : x.parseInnerV1 e.text = some e.envelope := by
  have trimmed : trim e.text.toList = e.text.toList := by
    rw [text, String.toList_ofList]
    exact trim_of_visible (base64Chars_visible _)
  simp [Xdr.parseInnerV1, Xdr.decodeEnvelopeStrict, trimmed, h.base64Decode, h.fromXdr, h.xdrBytes]

theorem KnownTo.computeInnerTxHash (h : e.KnownTo x) :
    x.computeInnerTxHash e.text = some e.hash := by
  simp [Xdr.computeInnerTxHash, h.parseInnerV1, h.payloadHash]

@[simp] theorem computeInnerTxHash : e.codec.computeInnerTxHash e.text = some e.hash :=
  (knownTo_codec e).computeInnerTxHash

/-! ### Two envelopes -/

theorem base64Chars_length (bytes : List Nat) :
    (base64Chars bytes).length = 4 * ((bytes.length + 2) / 3) := by
  induction bytes using base64Chars.induct with
  | case1 a b c rest ih =>
    simp only [base64Chars, length_cons]
    omega
  | case2 a b | case3 a | case4 => simp [base64Chars]

theorem text_length (e : Known) : e.text.length = 4 * ((e.raw.length + 2) / 3) := by
  rw [text, String.length_ofList, base64Chars_length, length_map]

structure Apart (e e' : Known) : Prop where
  length : (e.raw.length + 2) / 3 ≠ (e'.raw.length + 2) / 3
  tx : e.envelope.tx ≠ e'.envelope.tx

theorem Apart.text (h : Apart e e') : e'.text ≠ e.text := by
  intro heq
  have hlen := congrArg String.length heq
  rw [text_length, text_length] at hlen
  exact h.length (by omega)

def codecOfTwo (e e' : Known) : Xdr where
  fromXdrBase64 s := (e.codec.fromXdrBase64 s).or (e'.codec.fromXdrBase64 s)
  base64Decode cs := (e.codec.base64Decode cs).or (e'.codec.base64Decode cs)
  fromXdr raw := (e.codec.fromXdr raw).or (e'.codec.fromXdr raw)
  xdrBytes env := (e.codec.xdrBytes env).or (e'.codec.xdrBytes env)
  payloadHash tx := (e.codec.payloadHash tx).or (e'.codec.payloadHash tx)
  fromUtf8Lossy := e.codec.fromUtf8Lossy

theorem knownTo_codecOfTwo_left (e e' : Known) : e.KnownTo (codecOfTwo e e') := by
  constructor <;> simp [codecOfTwo, codec]

theorem knownTo_codecOfTwo_right (h : Apart e e') : e'.KnownTo (codecOfTwo e e') := by
  have hraw : e'.raw ≠ e.raw := fun heq => h.length (by rw [heq])
  have htx : e'.envelope.tx ≠ e.envelope.tx := fun heq => h.tx heq.symm
  have henv : e'.envelope ≠ e.envelope := fun heq => htx (by rw [heq])
  have hchars : e'.text.toList ≠ e.text.toList := fun heq => h.text (String.toList_injective heq)
  constructor <;> simp [codecOfTwo, codec, h.text, hchars, hraw, htx, henv]

end Known

/-! ### Two transactions -/

/-- The account whose key is 32 times the byte `b`. -/
def exampleKey (b : UInt8) : Ed25519 := ⟨List.replicate 32 b, List.length_replicate⟩

theorem exampleKey_inj {b b' : UInt8} (h : exampleKey b = exampleKey b') : b = b' := by
  have hb := congrArg (fun k : Ed25519 => k.bytes.head?) h
  simpa [exampleKey] using hb

def exampleAccountG (b : UInt8) : String := sep23.publicKeyToString (exampleKey b).bytes

def examplePay (destination : UInt8) : Operation :=
  ⟨none, .payment (.ed25519 (exampleKey destination)) .native 100⟩

def examplePayRaw (destination : UInt8) : List UInt8 :=
  [0, 0, 0, 0, 0, 0, 0, 1, 0, 0, 0, 0] ++ List.replicate 32 destination ++
    [0, 0, 0, 0, 0, 0, 0, 0, 0, 0, 0, 100]

def exampleSignedRaw : List UInt8 :=
  [0, 0, 0, 0, 0, 0, 0, 1, 1, 1, 1, 1, 0, 0, 0, 64] ++ List.replicate 64 9

/-- A signed payment on the test network, with an upper time bound. -/
def onePayment : Known where
  raw := [0, 0, 0, 2, 0, 0, 0, 0] ++ List.replicate 32 1 ++
    [0, 0, 0, 100, 0, 0, 0, 0, 0, 0, 0, 5, 0, 0, 0, 1, 0, 0, 0, 0, 0, 0, 0, 0, 0, 0, 0, 0, 105,
      85, 185, 0, 0, 0, 0, 0, 0, 0, 0, 1] ++ examplePayRaw 2 ++ exampleSignedRaw
  envelope := ⟨⟨.ed25519 (exampleKey 1), 100, 5, .time ⟨0, 1767225600⟩, [examplePay 2]⟩,
    [List.replicate 64 9]⟩
  hash := [0xca, 0x94, 0x72, 0x74, 0x4d, 0x14, 0xf0, 0x5e, 0x1a, 0xf6, 0xd7, 0xf5, 0x09, 0x51,
    0x75, 0x0b, 0xa3, 0xa0, 0x0e, 0xfa, 0xe9, 0x17, 0x25, 0x3e, 0xca, 0xb0, 0x9b, 0xd7, 0x5a, 0x96,
    0xc1, 0xdf]

def twoPayments : Known where
  raw := [0, 0, 0, 2, 0, 0, 0, 0] ++ List.replicate 32 1 ++
    [0, 0, 0, 200, 0, 0, 0, 0, 0, 0, 0, 5, 0, 0, 0, 0, 0, 0, 0, 0, 0, 0, 0, 2] ++ examplePayRaw 2 ++
    examplePayRaw 3 ++ exampleSignedRaw
  envelope := ⟨⟨.ed25519 (exampleKey 1), 200, 5, .none, [examplePay 2, examplePay 3]⟩,
    [List.replicate 64 9]⟩
  hash := [0xf3, 0x69, 0x8e, 0x6d, 0xd0, 0x62, 0x50, 0x78, 0x11, 0xe3, 0x7c, 0x0c, 0xbd, 0xa9,
    0x35, 0xf8, 0xea, 0x0c, 0xe6, 0x62, 0x5e, 0xb8, 0x0e, 0x44, 0x30, 0x64, 0x8d, 0x28, 0x41, 0x41,
    0x1a, 0x10]

theorem onePayment_raw_length : onePayment.raw.length = 216 := by
  simp only [onePayment, examplePayRaw, exampleSignedRaw, length_append, length_replicate,
    length_cons, length_nil]

theorem twoPayments_raw_length : twoPayments.raw.length = 256 := by
  simp only [twoPayments, examplePayRaw, exampleSignedRaw, length_append, length_replicate,
    length_cons, length_nil]

theorem onePayment_apart : Known.Apart onePayment twoPayments where
  length := by rw [onePayment_raw_length, twoPayments_raw_length]; decide
  tx := by simp [onePayment, twoPayments]

end Octo
