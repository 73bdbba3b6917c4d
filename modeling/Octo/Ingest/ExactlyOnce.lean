import Octo.Ingest.Code
import Octo.Store.WellFormed
import Octo.Wallet.Sep23

/-!
# Exactly-once ingest

However many polls, page tasks and stream sessions run on a wallet, and wherever they die, each
crediting record at or before a cursor that was ever saved has exactly one deposit row, and no
operation has two (`exactly_once_ingest`).  The cursor is written without comparing it to what is
there, so the invariant `Ingested` speaks of every cursor that was ever in the table or read from
it: all crediting records up to it are recorded.
-/

namespace Octo.Ingest

open Conc List

def HasWallet (g : Ingestor) (db : Db) : Prop :=
  ∃ w ∈ db.wallets, w.id = g.walletId ∧ w.stellarAccountG = g.accountG

def Recorded (db : Db) (walletId : Uuid) (opId : String) : Prop :=
  ∃ t ∈ db.transactions, t.walletId = walletId ∧ t.direction = .deposit ∧ t.horizonOpId = some opId

/-- Every credit up to the token is recorded. -/
def CoveredBy (out : Outside) (db : Db) (g : Ingestor) (token : String) : Prop :=
  ∀ r ∈ out.horizon.operations g.accountG, Credits out g r → Horizon.upTo (some token) r →
    Recorded db g.walletId r.id

structure Origin (out : Outside) (db : Db) (t : Transaction) (g : Ingestor) (rec : PaymentRecord) :
    Prop where
  wallet : HasWallet g db
  walletId : t.walletId = g.walletId
  direction : t.direction = .deposit
  listed : rec ∈ out.horizon.operations g.accountG
  credited : creditAccount rec = some g.accountG
  opId : t.horizonOpId = some rec.id
  hash : t.stellarTxHash = some (rec.transactionHash.getD "")
  index : ∃ m toid, decodeToid rec.id m = some toid ∧ t.operationIndex = some toid.operationIndex

/-- The invariant of ingestion. -/
structure Ingested (out : Outside) (w : World) : Prop where
  /-- Ids and accounts of wallets are unique. -/
  wallets : w.db.wallets.Pairwise (fun a b => a.id ≠ b.id ∧ a.stellarAccountG ≠ b.stellarAccountG)
  fresh : ∀ a ∈ w.db.wallets, a.id < w.db.nextId
  jobs : ∀ j ∈ w.jobs, ∀ g, j.ingestor = some g → HasWallet g w.db
  origin : ∀ t ∈ w.db.transactions, ∃ g rec, Origin out w.db t g rec
  unique : w.db.transactions.Pairwise (fun t t' => t.horizonOpId ≠ t'.horizonOpId)
  told : ∀ i d ans s s', ⟨i, .recordDeposit d, .ok ans, s, s'⟩ ∈ w.hist →
    Recorded w.db d.walletId d.horizonOpId
  saved : ∀ e ∈ w.hist, ∀ id token, e.act.post.getCursor id = some token →
    ∃ g, HasWallet g w.db ∧ g.walletId = id ∧ CoveredBy out w.db g token
  present : ∀ id token, w.db.getCursor id = some token →
    ∃ g, HasWallet g w.db ∧ g.walletId = id ∧ CoveredBy out w.db g token

/-! ### Wallets -/

variable {g g' : Ingestor} {db s' : Db} {r : PaymentRecord}

variable {s : Db} {out : Outside} {o : Op} {t : Transaction} {token : String} {d : NewDeposit}
  {id : Uuid}

theorem HasWallet.mono (hg : Grows s s') (h : HasWallet g s) : HasWallet g s' := by
  obtain ⟨w, hw, hid, hacc⟩ := h
  obtain ⟨w', hw', hid', hacc'⟩ := hg.wallets w hw
  exact ⟨w', hw', hid'.trans hid, hacc'.trans hacc⟩

theorem Recorded.mono {op : String} (hg : Grows s s') (h : Recorded s id op) :
    Recorded s' id op := by
  obtain ⟨t, ht, hr⟩ := h
  exact ⟨t, hg.transactions t ht, hr⟩

theorem CoveredBy.mono (hg : Grows s s') (h : CoveredBy out s g token) : CoveredBy out s' g token :=
  fun r hr hc hle => (h r hr hc hle).mono hg

theorem Origin.mono {rec : PaymentRecord} (hg : Grows s s') (h : Origin out s t g rec) :
    Origin out s' t g rec :=
  { h with wallet := h.wallet.mono hg }

theorem hasWallet_account
    (hu : db.wallets.Pairwise (fun a b => a.id ≠ b.id ∧ a.stellarAccountG ≠ b.stellarAccountG))
    (h : HasWallet g db) (h' : HasWallet g' db) :
    g.walletId = g'.walletId ↔ g.accountG = g'.accountG := by
  obtain ⟨w, hw, hid, hacc⟩ := h
  obtain ⟨w', hw', hid', hacc'⟩ := h'
  constructor
  · intro heq
    have : w = w' := eq_of_pairwise_ne (hu.imp And.left) hw hw' (by rw [hid, hid', heq])
    rw [← hacc, ← hacc', this]
  · intro heq
    have : w = w' := eq_of_pairwise_ne (hu.imp And.right) hw hw' (by rw [hacc, hacc', heq])
    rw [← hid, ← hid', this]

theorem Credits.congr (hacc : g.accountG = g'.accountG) (h : Credits out g r) :
    Credits out g' r := by
  obtain ⟨hs, ht, credit, stroops, hc, hn, hpos⟩ := h
  have heq : creditOn out g r = creditOn out g' r := by
    unfold creditOn claimCreditOn directCredit attributeTo muxedId claimedCredit
    rw [hacc]
  exact ⟨hs, ht, credit, stroops, heq ▸ hc, hn, hpos⟩

/-! ### Deposits -/

theorem recorded_of_clash (hlaw : out.horizon.Lawful)
    (hu : db.wallets.Pairwise (fun a b => a.id ≠ b.id ∧ a.stellarAccountG ≠ b.stellarAccountG))
    (hg : HasWallet g db) {tr : List Act} (hd : DepositOk out g tr d) {rec' : PaymentRecord}
    (ht : t ∈ db.transactions) (ho : Origin out db t g' rec') (hc : Db.clashes d t = true) :
    Recorded db d.walletId d.horizonOpId := by
  obtain ⟨rec, hmem, hid, hhash, hcred, m, toid, htoid, hidx⟩ := hd.record
  have hsame : rec' = rec := by
    refine hlaw.same _ _ rec' ho.listed rec hmem ?_
    simp only [Db.clashes, ho.hash, ho.opId, hhash, hid, Bool.or_eq_true, Bool.and_eq_true,
      beq_iff_eq, Option.some.injEq] at hc
    rcases hc with ⟨hh, hi⟩ | hi
    · -- same transaction and same index within it
      obtain ⟨m', toid', htoid', hidx'⟩ := ho.index
      rw [hidx', Option.some.injEq] at hi
      obtain ⟨x, hx⟩ := Option.isSome_iff_exists.mp (hlaw.hash _ rec hmem)
      obtain ⟨x', hx'⟩ := Option.isSome_iff_exists.mp (hlaw.hash _ rec' ho.listed)
      have hhash' : rec'.transactionHash = rec.transactionHash := by
        rw [hx, hx'] at hh ⊢
        rw [show x' = x from hh]
      have hdiv := hlaw.hash_tx _ _ rec' ho.listed rec hmem hhash'
      have h1 := decodeToid_index htoid
      have h2 := decodeToid_index htoid'
      omega
    · rw [hi]
  subst hsame
  have hacc : g'.accountG = g.accountG := Option.some.inj (ho.credited.symm.trans hcred)
  have hwal := (hasWallet_account hu ho.wallet hg).mpr hacc
  exact ⟨t, ht, by rw [ho.walletId, hwal, hd.walletId], ho.direction, by rw [ho.opId, hid]⟩

/-! ### What calls leave alone -/

theorem write_wallets (out : Outside) (o : Op) (s : Db) :
    (write out o s).wallets.map (fun w => (w.id, w.stellarAccountG)) =
      s.wallets.map (fun w => (w.id, w.stellarAccountG)) := by
  cases o with
  | setCursor w token => obtain ⟨cs, h⟩ := setCursor_eq s w token; simp only [write, h]
  | markPolled w => obtain ⟨cs, h⟩ := markPolled_eq s w; simp only [write, h]
  | recordDeposit d => obtain ⟨n, ts, h⟩ := recordDeposit_eq s d; simp only [write, h]
  | allocateAddress w base ref md =>
    rcases allocateAddress_cases w (out.deriveMuxed base) ref md s with ⟨e, h⟩
      | ⟨wal, muxed, -, -, -, h⟩
    · simp only [write, h]
    · simp only [write, h, map_map]
      refine map_congr_left fun x _ => ?_
      simp only [Function.comp]
      split <;> rfl
  | createPaymentLink l =>
    obtain ⟨n, ls, h⟩ := createPaymentLink_eq s l
    simp only [write, h]
  | cancelPaymentLink w id =>
    obtain ⟨ls, ps, h⟩ := cancelPaymentLink_eq s w id
    simp only [write, h]
  | _ => rfl

/-- Only a deposit adds a transaction, and only a saved cursor moves one. -/
theorem write_frames (out : Outside) (o : Op) (s : Db) :
    ((∀ d, o ≠ .recordDeposit d) → (write out o s).transactions = s.transactions) ∧
      ((∀ w t, o ≠ .setCursor w t) → ∀ id, (write out o s).getCursor id = s.getCursor id) := by
  cases o with
  | setCursor w token =>
    obtain ⟨cs, h⟩ := setCursor_eq s w token
    exact ⟨fun _ => by simp only [write, h], fun ho => absurd rfl (ho w token)⟩
  | markPolled w =>
    obtain ⟨cs, h⟩ := markPolled_eq s w
    exact ⟨fun _ => by simp only [write, h], fun _ => Db.getCursor_markPolled s w⟩
  | recordDeposit d =>
    obtain ⟨n, ts, h⟩ := recordDeposit_eq s d
    exact ⟨fun ho => absurd rfl (ho d), fun _ _ => by simp only [write, h, Db.getCursor]⟩
  | allocateAddress w base ref md =>
    obtain ⟨n, ws, as, h⟩ := allocateAddress_eq s w (out.deriveMuxed base) ref md
    simp [write, h, Db.getCursor]
  | createPaymentLink l =>
    obtain ⟨n, ls, h⟩ := createPaymentLink_eq s l
    simp [write, h, Db.getCursor]
  | cancelPaymentLink w id =>
    obtain ⟨ls, ps, h⟩ := cancelPaymentLink_eq s w id
    simp [write, h, Db.getCursor]
  | _ => exact ⟨fun _ => rfl, fun _ _ => rfl⟩

/-! ### One call -/

section

variable {out : Outside} {w : World} {i : Nat} {j : Job} {ch : Choice} {s : Db} {a : Ans o}

theorem Ingested.ingestor (hI : Ingested out w) (hj : w.jobs[i]? = some j) {g : Ingestor}
    (hg : j.ingestor = some g) : HasWallet g w.db :=
  hI.jobs j (mem_of_getElem? hj) g hg

theorem recorded_of_answer (hlaw : out.horizon.Lawful) (hI : Ingested out w)
    (hj : w.jobs[i]? = some j) (hL : Allowed out j (w.trace i) (.recordDeposit d))
    {ans : Option Transaction} (he : exec out (.recordDeposit d) ch w.db = some (.ok ans, s)) :
    Recorded s d.walletId d.horizonOpId := by
  obtain ⟨g, hg, hd⟩ := hL
  have he := exec_recordDeposit he
  rcases recordDeposit_cases d w.db with ⟨-, h⟩ | ⟨⟨t, ht, hc⟩, h⟩ | ⟨-, -, h⟩
  · rw [h] at he
    cases he
  · rw [h] at he
    obtain ⟨-, rfl⟩ := Prod.mk.inj he
    obtain ⟨g', _, ho⟩ := hI.origin t ht
    exact recorded_of_clash hlaw hI.wallets (hI.ingestor hj hg) hd ht ho hc
  · rw [h] at he
    obtain ⟨-, rfl⟩ := Prod.mk.inj he
    exact ⟨w.db.depositRow d, mem_concat_self, rfl, rfl, rfl⟩

theorem transactions_call (hI : Ingested out w) (hj : w.jobs[i]? = some j)
    (hL : Allowed out j (w.trace i) o) (he : exec out o ch w.db = some (a, s)) :
    (∀ t ∈ s.transactions, ∃ g rec, Origin out s t g rec) ∧
      s.transactions.Pairwise (fun t t' => t.horizonOpId ≠ t'.horizonOpId) := by
  have hgrow := exec_grows he
  have hold : ∀ t ∈ w.db.transactions, ∃ g rec, Origin out s t g rec := by
    intro t ht
    obtain ⟨g, rec, ho⟩ := hI.origin t ht
    exact ⟨g, rec, ho.mono hgrow⟩
  have hsame : s.transactions = w.db.transactions →
      (∀ t ∈ s.transactions, ∃ g rec, Origin out s t g rec) ∧
        s.transactions.Pairwise (fun t t' => t.horizonOpId ≠ t'.horizonOpId) := fun heq => by
    rw [heq]
    exact ⟨hold, hI.unique⟩
  rcases exec_write he with rfl | rfl
  · exact hsame rfl
  by_cases ho : ∃ d, o = .recordDeposit d
  · obtain ⟨d, rfl⟩ := ho
    obtain ⟨g, hg, hd⟩ := hL
    obtain ⟨rec, hmem, hid, hhash, hcred, m, toid, htoid, hidx⟩ := hd.record
    have hwal := (hI.ingestor hj hg).mono hgrow
    simp only [write] at hwal hold hsame ⊢
    rcases recordDeposit_cases d w.db with ⟨-, h⟩ | ⟨-, h⟩ | ⟨-, hfree, h⟩
    · exact hsame (by rw [h])
    · exact hsame (by rw [h])
    · rw [h] at hwal hold ⊢
      refine ⟨Rows.forall_mem_concat hold ?_, Rows.pairwise_concat hI.unique ?_⟩
      · exact ⟨g, rec, hwal, hd.walletId, rfl, hmem, hcred, congrArg some hid, congrArg some hhash,
          m, toid, htoid, congrArg some hidx⟩
      · intro t ht heq
        have hne := hfree t ht
        simp [Db.clashes, heq, Db.depositRow] at hne
  · exact hsame ((write_frames out o w.db).1 (fun d h => ho ⟨d, h⟩))

section

variable (hlaw : out.horizon.Lawful) (hI : Ingested out w) (hc : w.Chained (system out) Grows)
  (hj : w.jobs[i]? = some j)
include hlaw hI hc hj

theorem cursor_call (hL : Allowed out j (w.trace i) o) (he : exec out o ch w.db = some (a, s))
    (htok : s.getCursor id = some token) :
    ∃ g, HasWallet g s ∧ g.walletId = id ∧ CoveredBy out s g token := by
  have hgrow := exec_grows he
  have hold : w.db.getCursor id = some token →
      ∃ g, HasWallet g s ∧ g.walletId = id ∧ CoveredBy out s g token := by
    intro h
    obtain ⟨g, hw, hid, hcov⟩ := hI.present id token h
    exact ⟨g, hw.mono hgrow, hid, hcov.mono hgrow⟩
  rcases exec_write he with rfl | rfl
  · exact hold htok
  by_cases ho : ∃ w' t, o = .setCursor w' t
  · obtain ⟨w', t, rfl⟩ := ho
    simp only [write, Db.getCursor_setCursor] at htok
    split at htok
    · rename_i heq
      cases htok
      obtain ⟨g, hg, hwg, hcov, -⟩ := hL
      have hwal := hI.ingestor hj hg
      obtain ⟨c, s0, s0', hget, hcov⟩ := hcov hlaw
      refine ⟨g, hwal.mono hgrow, by rw [heq, hwg], fun r hr hcr hle => Recorded.mono hgrow ?_⟩
      rcases hcov r hr hcr hle with hup | hdep
      · -- covered by the cursor the task had read
        obtain ⟨ch0, he0⟩ := exec_of_trace hc hget
        obtain ⟨rfl, hread⟩ := exec_getCursor he0
        obtain ⟨tok, rfl, hup⟩ := hup
        obtain ⟨g', hw', hid', hcov'⟩ := hI.saved _ (World.mem_trace.mp hget) g.walletId tok hread
        have hacc := (hasWallet_account hI.wallets hw' hwal).mp hid'
        have := hcov' r (by rw [hacc]; exact hr) (hcr.congr hacc.symm) ⟨tok, rfl, hup⟩
        rw [hid'] at this
        exact this
      · obtain ⟨d, ans, s1, s1', hm, hdw, hdid⟩ := hdep
        have := hI.told i d ans s1 s1' (World.mem_trace.mp hm)
        rw [hdw, hdid] at this
        exact this
    · exact hold htok
  · rw [(write_frames out o _).2 (fun w' t h => ho ⟨w', t, h⟩)] at htok
    exact hold htok

theorem ingested_call (hL : Allowed out j (w.trace i) o) (he : exec out o ch w.db = some (a, s)) :
    Ingested out (w.record i o a s) := by
  have hgrow := exec_grows he
  have hkeys : s.wallets.map (fun w => (w.id, w.stellarAccountG)) =
      w.db.wallets.map (fun w => (w.id, w.stellarAccountG)) := by
    rcases exec_write he with rfl | rfl
    · rfl
    · exact write_wallets out o w.db
  obtain ⟨horigin, hunique⟩ := transactions_call hI hj hL he
  have hpresent : ∀ id token, s.getCursor id = some token →
      ∃ g, HasWallet g s ∧ g.walletId = id ∧ CoveredBy out s g token :=
    fun _ _ htok => cursor_call hlaw hI hc hj hL he htok
  refine
    { wallets := ?_, fresh := ?_, jobs := fun j hj g hg => (hI.jobs j hj g hg).mono hgrow
      origin := horigin, unique := hunique, told := ?_, saved := ?_, present := hpresent }
  · have hp : (s.wallets.map (fun w => (w.id, w.stellarAccountG))).Pairwise
        (fun a b => a.1 ≠ b.1 ∧ a.2 ≠ b.2) := by
      rw [hkeys]
      exact pairwise_map.mpr hI.wallets
    exact pairwise_map.mp hp
  · intro x hx
    have hm : (x.id, x.stellarAccountG) ∈ w.db.wallets.map
        (fun w => (w.id, w.stellarAccountG)) := by
      rw [← hkeys]
      exact mem_map.mpr ⟨x, hx, rfl⟩
    obtain ⟨y, hy, heq⟩ := mem_map.mp hm
    have hid : y.id = x.id := (Prod.mk.inj heq).1
    rw [← hid]
    exact Nat.lt_of_lt_of_le (hI.fresh y hy) hgrow.nextId
  · intro i' d ans s0 s0' hm
    rcases mem_cons.mp hm with heq | hm
    · cases heq
      exact recorded_of_answer hlaw hI hj hL he
    · exact (hI.told i' d ans s0 s0' hm).mono hgrow
  · intro e hm id token htok
    rcases mem_cons.mp hm with rfl | hm
    · exact hpresent id token htok
    · obtain ⟨g, hw, hid, hcov⟩ := hI.saved e hm id token htok
      exact ⟨g, hw.mono hgrow, hid, hcov.mono hgrow⟩

end

end

/-! ### All runs -/

theorem ingested_init (out : Outside) {s : Db} (h : Initial s) : Ingested out ⟨s, [], []⟩ where
  wallets := h.wellFormed.wallets
  fresh := h.wellFormed.wallets_fresh
  jobs _ hj := nomatch hj
  origin t ht := by
    rw [show s.transactions = [] from h.transactions] at ht
    cases ht
  unique := by
    rw [h.transactions]
    exact .nil
  told _ _ _ _ _ hm := nomatch hm
  saved _ hm := nomatch hm
  present id token htok := by
    rw [Db.getCursor, show s.cursors = [] from h.cursors] at htok
    cases htok

theorem ingested_env {out : Outside} {w : World} {e : Env} {s : Db} (hI : Ingested out w)
    (he : env e w.db = some s) : Ingested out (w.setDb s) := by
  have hgrow := env_grows he
  have hrest : s.transactions = w.db.transactions ∧ (∀ id, s.getCursor id = w.db.getCursor id) ∧
      s.wallets.Pairwise (fun a b => a.id ≠ b.id ∧ a.stellarAccountG ≠ b.stellarAccountG) ∧
      ∀ a ∈ s.wallets, a.id < s.nextId := by
    cases e with
    | tick =>
      cases he
      exact ⟨rfl, fun _ => rfl, hI.wallets, hI.fresh⟩
    | createWallet =>
      simp only [env] at he
      split at he
      · cases he
      rename_i hnew
      cases he
      refine ⟨rfl, fun _ => rfl, Rows.pairwise_concat hI.wallets ?_, Rows.lt_concat hI.fresh rfl⟩
      intro a ha
      refine ⟨Nat.ne_of_lt (hI.fresh a ha), fun heq => hnew ?_⟩
      exact any_eq_true.mpr ⟨a, ha, by simpa using heq⟩
  obtain ⟨htx, hcur, hwal, hfresh⟩ := hrest
  have hcov : ∀ {id token}, (∃ g, HasWallet g w.db ∧ g.walletId = id ∧ CoveredBy out w.db g token) →
      ∃ g, HasWallet g s ∧ g.walletId = id ∧ CoveredBy out s g token := by
    rintro id _ ⟨g, hw, hid, hc⟩
    exact ⟨g, hw.mono hgrow, hid, hc.mono hgrow⟩
  refine
    { wallets := hwal, fresh := hfresh, jobs := fun j hj g hg => (hI.jobs j hj g hg).mono hgrow
      origin := ?_, unique := ?_
      told := fun i d ans s0 s0' hm => (hI.told i d ans s0 s0' hm).mono hgrow
      saved := fun e hm id token htok => hcov (hI.saved e hm id token htok)
      present := fun id token htok => hcov (hI.present id token (by rw [← hcur id]; exact htok)) }
  · intro t ht
    obtain ⟨g, rec, ho⟩ := hI.origin t (htx ▸ ht)
    exact ⟨g, rec, ho.mono hgrow⟩
  · show s.transactions.Pairwise _
    rw [htx]
    exact hI.unique

theorem ingested_reach {out : Outside} (hlaw : out.horizon.Lawful)
    {cond : World → Label Job Op Ans → Prop} {c : Conf Job Op Ans Db}
    (h : Reach (system out) cond Initial c) : Ingested out c.world := by
  refine (discipline out).invariant (fun s hs => ingested_init out hs) ?_ ?_ ?_ h
  · intro w j hI hst _
    refine { hI with jobs := fun j' hj' g hg => ?_ }
    rcases Rows.mem_concat.mp hj' with hj' | rfl
    · exact hI.jobs j' hj' g hg
    · simp only [system, canStart, hg, Option.all_some, any_eq_true, Bool.and_eq_true,
        beq_iff_eq] at hst
      exact hst
  · intro w i j o ch a s hI hc hj hL he _
    exact ingested_call hlaw hI hc hj hL he
  · intro w e s hI he _
    exact ingested_env hI he

def EverSaved (w : World) (walletId : Uuid) (token : String) : Prop :=
  ∃ e ∈ w.hist, e.act.post.getCursor walletId = some token

def depositRows (db : Db) (opId : String) : List Transaction :=
  db.transactions.filter (fun t => t.direction == .deposit && t.horizonOpId == some opId)

theorem depositRows_length_le
    (hu : db.transactions.Pairwise (fun t t' => t.horizonOpId ≠ t'.horizonOpId)) (opId : String) :
    (depositRows db opId).length ≤ 1 := by
  have hp := hu.filter (fun t => t.direction == .deposit && t.horizonOpId == some opId)
  have hall : ∀ t ∈ depositRows db opId, t.horizonOpId = some opId := by
    intro t ht
    have := (mem_filter.mp ht).2
    simp only [Bool.and_eq_true, beq_iff_eq] at this
    exact this.2
  change (depositRows db opId).Pairwise _ at hp
  cases hl : depositRows db opId with
  | nil => exact Nat.zero_le _
  | cons t rest =>
    cases rest with
    | nil => exact Nat.le_refl _
    | cons t' =>
      rw [hl] at hp hall
      have hne := (pairwise_cons.mp hp).1 t' mem_cons_self
      exact absurd ((hall t mem_cons_self).trans
        (hall t' (mem_cons_of_mem _ mem_cons_self)).symm) hne

/-- **Exactly-once deposit ingest.** In every reachable world no operation has two deposit rows, and
every crediting record of a wallet at or before a cursor that was ever saved for it has exactly one,
and that row is the wallet's. -/
theorem exactly_once_ingest (out : Outside) (hlaw : out.horizon.Lawful) (c : Conf Job Op Ans Db)
    (h : Reachable (system out) Initial c) :
    (∀ opId, (depositRows c.world.db opId).length ≤ 1) ∧
    ∀ g, HasWallet g c.world.db → ∀ token, EverSaved c.world g.walletId token →
      ∀ r ∈ out.horizon.operations g.accountG, Credits out g r →
        tokenValue r.pagingToken ≤ tokenValue token →
        ∃ t, depositRows c.world.db r.id = [t] ∧ t.walletId = g.walletId := by
  have hI := ingested_reach hlaw h
  refine ⟨depositRows_length_le hI.unique, ?_⟩
  rintro g hg token ⟨e, he, htok⟩ r hr hc hle
  obtain ⟨g', hg', hid, hcov⟩ := hI.saved e he g.walletId token htok
  have hacc := (hasWallet_account hI.wallets hg' hg).mp hid
  obtain ⟨t, ht, htw, htd, hto⟩ := hcov r (hacc ▸ hr) (hc.congr hacc.symm) ⟨token, rfl, hle⟩
  have hmem : t ∈ depositRows c.world.db r.id := List.mem_filter.mpr ⟨ht, by simp [htd, hto]⟩
  have hlen := depositRows_length_le hI.unique r.id
  cases hl : depositRows c.world.db r.id with
  | nil => rw [hl] at hmem; cases hmem
  | cons t' rest =>
    rw [hl] at hmem hlen
    have hrest : rest = [] :=
      List.length_eq_zero_iff.mp (by simp only [List.length_cons] at hlen; omega)
    subst hrest
    rw [List.mem_singleton.mp hmem] at htw
    exact ⟨t', rfl, by rw [htw, hid]⟩

/-! ### One wallet, one payment -/

def exampleAccount : String := "GDRXE2BQUC3AZNPVFSCEZ76NJ3WWL25FYFK6RGZGIEKWE4SOOHSUJUJ6"

/-- A poll that is given one payment, and `n` calls after that. -/
def pollMoves (tid n : Nat) : List (Move Job Choice Env) :=
  [.start (.poll ⟨1, exampleAccount, false⟩ 10), .call tid (.served 0), .call tid (.served 1)] ++
    List.replicate n (.call tid (.served 0))

/-- Operation 1 of transaction 1 of ledger 3: ten lumens to the account. -/
def examplePayment : PaymentRecord where
  id := "12884905985"
  pagingToken := "12884905985"
  kind := "payment"
  transactionHash := some "3389e9f0f1a65f19736cacf544c2e825313e8447f569233bb8db39aa607c8889"
  transactionSuccessful := true
  src := some usdcTestnetIssuer
  dst := some exampleAccount
  assetType := some "native"
  amount := some "10.0000000"

def onePayment (r : PaymentRecord) : Outside where
  horizon := ⟨fun acct => if acct == exampleAccount then [r] else [], fun _ => [], fun _ => []⟩
  strkey := sep23
  urlScheme _ := none
  clockFloor := 0

theorem mem_onePayment {acct : String} {r' : PaymentRecord}
    (h : r' ∈ (onePayment r).horizon.operations acct) : r' = r := by
  simp only [onePayment] at h
  split at h
  · exact mem_singleton.mp h
  · cases h

theorem onePayment_lawful (htoken : r.pagingToken = r.id)
    (hhash : r.transactionHash.isSome) : (onePayment r).horizon.Lawful where
  ordered acct := by
    simp only [onePayment]
    split
    · exact pairwise_singleton _ _
    · exact .nil
  token acct r' hr := by rw [mem_onePayment hr]; exact htoken
  same a b r1 h1 r2 h2 _ := by rw [mem_onePayment h1, mem_onePayment h2]
  hash acct r' hr := by rw [mem_onePayment hr]; exact hhash
  hash_tx a b r1 h1 r2 h2 _ := by rw [mem_onePayment h1, mem_onePayment h2]

def exampleOutside : Outside := onePayment examplePayment

def exampleDb : Db where
  now := 0
  nextId := 2
  wallets := [⟨1, exampleAccount, 1, none⟩]
  addresses := []
  transactions := []
  cursors := []
  links := []
  payments := []

theorem exampleDb_initial : Initial exampleDb := by
  refine ⟨?_, rfl, rfl, fun p hp => nomatch hp⟩
  constructor <;> simp [exampleDb]

/-- A poll that records the payment and saves the cursor behind it. -/
theorem exactly_once_ingest_of_poll : ∃ c, Reachable (system exampleOutside) Initial c ∧
    ∃ t, depositRows c.world.db "12884905985" = [t] ∧ t.walletId = 1 := by
  obtain ⟨c, hc, hwallet, hcursor⟩ := exists_reachable_of_runMoves (S := system exampleOutside)
    exampleDb_initial (pollMoves 0 3) (p := fun c =>
      (∃ w ∈ c.world.db.wallets, w.id = 1 ∧ w.stellarAccountG = exampleAccount) ∧
      ∃ e ∈ c.world.hist, e.act.post.getCursor 1 = some "12884905985") (by decide)
  refine ⟨c, hc, ?_⟩
  refine (exactly_once_ingest exampleOutside (onePayment_lawful rfl rfl) c hc).2
    ⟨1, exampleAccount, false⟩ hwallet "12884905985" hcursor examplePayment ?_ ?_ (Nat.le_refl _)
  · exact List.mem_singleton.mpr rfl
  · exact ⟨rfl, by decide, _, 100000000, rfl, by decide, by decide⟩

end Octo.Ingest
