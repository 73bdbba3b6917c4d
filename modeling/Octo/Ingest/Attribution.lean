import Octo.Ingest.Served

/-!
# Which customer a deposit belongs to

A payment to `M...` names the customer by the 64-bit id in the address.  `muxed_id` reads that id as
an `i64`, and where it does not fit, `attribute` goes on to the memo as if the payment had been sent
to `G...`.
-/

namespace Octo.Ingest

open Conc Octo.PaymentLinks

def creationMemo (out : Outside) (rec : PaymentRecord) : Option Int :=
  ((rec.balanceId.filter isBalanceId).bind (fun id =>
    claimableBalanceOriginOf (out.horizon.balanceOperations id))).bind
      (fun o => o.transaction.bind memoIdOfTx)

section

variable {out : Outside} {g : Ingestor} {now : Nat} {rec : PaymentRecord} {db db' : Db}

theorem customerId_of_creditOn {credit : Credit} (h : creditOn out g rec = some credit) :
    credit.customerId = if rec.kind = claimKind then creationMemo out rec
      else attributeTo out.strkey g rec := by
  unfold creditOn at h
  by_cases hk : rec.kind = claimKind
  · rw [if_pos (beq_iff_eq.mpr hk)] at h
    rw [if_pos hk]
    unfold claimCreditOn at h
    split at h
    · cases h
    unfold creationMemo
    cases hb : rec.balanceId.filter isBalanceId with
    | none =>
      rw [hb] at h
      cases h
    | some balanceId =>
      rw [hb] at h
      dsimp only at h
      split at h
      · cases h
      unfold claimedCredit at h
      dsimp only at h
      split at h
      · cases h
      · rw [← Option.some.inj h, Option.bind_some]
        cases claimableBalanceOriginOf (out.horizon.balanceOperations balanceId) <;> rfl
  · rw [if_neg (fun hb => hk (beq_iff_eq.mp hb))] at h
    rw [if_neg hk]
    unfold directCredit at h
    split at h
    · cases h
    split at h
    · cases h
    split at h
    · cases h
    · rw [← Option.some.inj h]

theorem recorded_addressId (hnow : out.clockFloor ≤ now) {r : Except IngestError Processed}
    {row : Transaction} (hret : Returns (served out now) (process out.strkey g rec).run db r db')
    (hrow : db'.transactions = db.transactions ++ [row]) :
    row.addressId = ((if rec.kind = claimKind then creationMemo out rec
      else attributeTo out.strkey g rec).bind
        (fun id => db.addressByMuxedId g.walletId id)).map (·.id) := by
  obtain ⟨p, -, hout⟩ := (alone_process hnow rec db).of_returns (fun _ _ => rfl) hret
  have hgrown : db'.transactions ≠ db.transactions := by
    rw [hrow]
    simp
  cases hout with
  | failed | skipped | duplicate => exact absurd rfl hgrown
  | @recorded w _ hw _ hrows =>
    have hlast := List.append_cancel_left (hrow.symm.trans hrows)
    obtain ⟨rfl, -⟩ := List.cons.inj hlast
    rw [← customerId_of_creditOn (worth_eq_some.mp hw).2.2.1]
    rfl

end

/-- The deposit belongs to the wallet's address with the id, and to no address if there is none. -/
def Attributed (g : Ingestor) (n : Nat) (db : Db) (row : Transaction) : Prop :=
  row.addressId = (db.addressByMuxedId g.walletId n).map (·.id)

/-- What `process` looks the customer up by leads to the same address: for a claimed balance this is
the memo of its creation; otherwise the id is read where it is an `i64`, and where it is not, the
memo must name no address. -/
def IdDecides (out : Outside) (g : Ingestor) (rec : PaymentRecord) (n : Nat) (db : Db) : Prop :=
  if rec.kind = claimKind then
    ((creationMemo out rec).bind (fun id => db.addressByMuxedId g.walletId id)).map (·.id) =
      (db.addressByMuxedId g.walletId n).map (·.id)
  else n < 2 ^ 63 ∨ (memoId rec).bind (fun id => db.addressByMuxedId g.walletId id) = none

def MuxedIdsFit (db : Db) : Prop := ∀ a ∈ db.addresses, a.muxedId ≤ i64Max

section

variable {out : Outside} {g : Ingestor} {now : Nat} {rec : PaymentRecord} {db db' : Db}
  {muxed : String} {d : DecodedMuxed}

theorem muxedId_of_decoded (hmuxed : rec.dstMuxed = some muxed)
    (hdec : out.strkey.decodeMuxed muxed = some d) (hbase : out.strkey.baseAccount d = g.accountG) :
    muxedId out.strkey g rec = if d.id < 2 ^ 63 then some (d.id : Int) else none := by
  have hfits : (d.id : Int) ≤ i64Max ↔ d.id < 2 ^ 63 := by
    unfold i64Max
    omega
  unfold muxedId
  rw [hmuxed, Option.bind_eq_bind, Option.bind_some, hdec]
  simp [hbase, hfits]

theorem addressByMuxedId_big {w : Uuid} {n : Nat} (hcol : MuxedIdsFit db) (hn : ¬ n < 2 ^ 63) :
    db.addressByMuxedId w n = none := by
  unfold Db.addressByMuxedId
  rw [List.find?_eq_none]
  intro a ha
  have hle := hcol a ha
  unfold i64Max at hle
  simp only [Bool.and_eq_true, beq_iff_eq, not_and]
  omega

/-- **A deposit to a muxed address** is attributed by its id exactly if the id decides. -/
theorem muxed_attribution_iff (hnow : out.clockFloor ≤ now) (hmuxed : rec.dstMuxed = some muxed)
    (hdec : out.strkey.decodeMuxed muxed = some d) (hbase : out.strkey.baseAccount d = g.accountG)
    (hcol : MuxedIdsFit db) {r : Except IngestError Processed} {row : Transaction}
    (hret : Returns (served out now) (process out.strkey g rec).run db r db')
    (hrow : db'.transactions = db.transactions ++ [row]) :
    Attributed g d.id db row ↔ IdDecides out g rec d.id db := by
  unfold Attributed IdDecides
  rw [recorded_addressId hnow hret hrow]
  by_cases hk : rec.kind = claimKind
  · rw [if_pos hk, if_pos hk]
  · rw [if_neg hk, if_neg hk, attributeTo, muxedId_of_decoded hmuxed hdec hbase]
    by_cases hn : d.id < 2 ^ 63
    · rw [if_pos hn, Option.some_or]
      exact iff_of_true rfl (.inl hn)
    · rw [if_neg hn, addressByMuxedId_big hcol hn, Option.map_none, Option.map_eq_none_iff]
      exact ⟨.inr, fun h => h.resolve_left hn⟩

end

/-! ### A memo that decides -/

def exampleKey : Key := (sep23.publicKeyFromString exampleAccount).getD []

/-- Ten lumens to the example account, under a muxed address with the id and with the memo `7`. -/
def paymentToId (id : Nat) : PaymentRecord :=
  { examplePayment with
    dstMuxed := some (sep23.muxedToString exampleKey id)
    transaction := some ⟨some "id", some "7", none⟩ }

/-- Two customers of the example wallet, with the muxed ids `3` and `7`. -/
def twoCustomers : Db :=
  { exampleDb with
    nextId := 30
    addresses := [⟨13, 1, 3, "", none, "", 0⟩, ⟨17, 1, 7, "", none, "", 0⟩] }

theorem twoCustomers_fit : MuxedIdsFit twoCustomers := by
  unfold MuxedIdsFit
  decide

theorem exampleKey_text :
    sep23.publicKeyToString exampleKey = exampleAccount ∧ exampleKey.length = 32 := by
  decide +kernel

theorem decodeMuxed_paymentToId {id : Nat} (hid : id < 2 ^ 64) :
    sep23.decodeMuxed (sep23.muxedToString exampleKey id) = some ⟨exampleKey, id⟩ := by
  unfold Strkey.decodeMuxed
  rw [sep23_lawful.muxed_roundTrip exampleKey id exampleKey_text.2 hid]
  rfl

theorem exists_recorded (out : Outside) (g : Ingestor) {now : Nat} (rec : PaymentRecord) {db : Db}
    (hnow : out.clockFloor ≤ now) (hw : (worth out g now rec).isSome = true)
    (hempty : db.transactions = []) :
    ∃ r db' row, Returns (served out now) (process out.strkey g rec).run db r db' ∧
      db'.transactions = db.transactions ++ [row] := by
  obtain ⟨r, db', hret, p, -, hout⟩ := (alone_process hnow rec db).exists_runs
  cases hout with
  | failed hn | skipped hn => rw [hn] at hw; cases hw
  | duplicate _ hclash => rw [hempty] at hclash; cases hclash
  | recorded _ _ hrows => exact ⟨r, db', _, hret, hrows⟩

def exampleIngestor : Ingestor := ⟨1, exampleAccount, false⟩

theorem exampleOutside_now : exampleOutside.clockFloor ≤ 0 := Nat.le_refl 0

theorem baseAccount_exampleKey (id : Nat) :
    exampleOutside.strkey.baseAccount ⟨exampleKey, id⟩ = exampleIngestor.accountG := by
  have hsk : exampleOutside.strkey = sep23 := rfl
  rw [hsk, Strkey.baseAccount, exampleKey_text.1]
  rfl

/-- The id `3` decides, and not the memo `7`. -/
theorem attributed_by_id : ∃ r db' row,
    Returns (served exampleOutside 0)
      (process exampleOutside.strkey exampleIngestor (paymentToId 3)).run twoCustomers r db' ∧
    db'.transactions = [row] ∧ row.addressId = some 13 := by
  have hw : (worth exampleOutside exampleIngestor 0 (paymentToId 3)).isSome = true := by
    decide +kernel
  obtain ⟨r, db', row, hret, hrow⟩ :=
    exists_recorded _ _ _ exampleOutside_now hw (rfl : twoCustomers.transactions = [])
  have hdec : exampleOutside.strkey.decodeMuxed (sep23.muxedToString exampleKey 3) =
      some ⟨exampleKey, 3⟩ :=
    decodeMuxed_paymentToId (by decide)
  have hattr : Attributed exampleIngestor 3 twoCustomers row := by
    refine (muxed_attribution_iff exampleOutside_now rfl hdec (baseAccount_exampleKey 3)
      twoCustomers_fit hret hrow).mpr ?_
    unfold IdDecides
    exact .inl (by decide)
  exact ⟨r, db', row, hret, hrow, hattr⟩

/-- A payment to the id `2^63` that is credited to the customer its memo names. -/
theorem attributed_by_memo :
    exampleOutside.strkey.decodeMuxed (sep23.muxedToString exampleKey (2 ^ 63)) =
      some ⟨exampleKey, 2 ^ 63⟩ ∧
    exampleOutside.strkey.baseAccount ⟨exampleKey, 2 ^ 63⟩ = exampleAccount ∧
    twoCustomers.addressByMuxedId 1 (2 ^ 63) = none ∧
    ∃ r db' row,
      Returns (served exampleOutside 0)
        (process exampleOutside.strkey exampleIngestor (paymentToId (2 ^ 63))).run
        twoCustomers r db' ∧
      db'.transactions = [row] ∧ row.addressId = some 17 := by
  have hdec : exampleOutside.strkey.decodeMuxed (sep23.muxedToString exampleKey (2 ^ 63)) =
      some ⟨exampleKey, 2 ^ 63⟩ :=
    decodeMuxed_paymentToId (by decide)
  refine ⟨hdec, baseAccount_exampleKey _, by decide, ?_⟩
  have hw : (worth exampleOutside exampleIngestor 0 (paymentToId (2 ^ 63))).isSome = true := by
    decide +kernel
  obtain ⟨r, db', row, hret, hrow⟩ :=
    exists_recorded _ _ _ exampleOutside_now hw (rfl : twoCustomers.transactions = [])
  refine ⟨r, db', row, hret, hrow, ?_⟩
  have hdirect : (paymentToId (2 ^ 63)).kind ≠ claimKind := by decide
  rw [recorded_addressId exampleOutside_now hret hrow, if_neg hdirect, attributeTo,
    muxedId_of_decoded rfl hdec (baseAccount_exampleKey _)]
  decide

end Octo.Ingest
