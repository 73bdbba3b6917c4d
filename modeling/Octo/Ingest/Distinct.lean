import Octo.Ingest.Served

/-!
# Distinct operations and their keys

A deposit is known by two unique keys: its transaction hash with the operation index, and its
Horizon id.  Two operations that share one of them are collapsed into one row.  Records of any
number of wallets, on both networks, are processed one after the other in one database
(`ProcessAll`); `Separate` says that each operation gets its own row and only a repetition is a
duplicate.
-/

namespace Octo.Ingest

open Conc Octo.PaymentLinks Option List

inductive Network
  | mainnet
  | testnet
  deriving DecidableEq

/-- A record of a network's Horizon, and the wallet it is processed for. -/
structure Item where
  network : Network
  g : Ingestor
  op : PaymentRecord
  deriving DecidableEq

namespace Item

/-- `stellar_tx_hash`: a record without a hash has the empty one. -/
def hash (x : Item) : String := x.op.transactionHash.getD ""

def index (x : Item) : Int := (tokenValue x.op.id % 2 ^ 12 : Nat) - 1

def Clash (x y : Item) : Prop := x.op.id = y.op.id ∨ (x.hash = y.hash ∧ x.index = y.index)

/-- The two records are of one Horizon operation: ids are unique on a network. -/
def SameOperation (x y : Item) : Prop := x.op.id = y.op.id ∧ x.network = y.network

def taken (x : Item) (t : Transaction) : Bool :=
  (t.stellarTxHash == some x.hash && t.operationIndex == some x.index) ||
    t.horizonOpId == some x.op.id

end Item

structure RowOf (x : Item) (t : Transaction) : Prop where
  walletId : t.walletId = x.g.walletId
  direction : t.direction = .deposit
  hash : t.stellarTxHash = some x.hash
  index : t.operationIndex = some x.index
  opId : t.horizonOpId = some x.op.id

section

variable (nets : Network → Outside)

/-- The records are processed one after the other, every call answered, and come to the results. -/
inductive ProcessAll : List Item → Db → List Processed → Db → Prop
  | nil (db : Db) : ProcessAll [] db [] db
  | cons {x : Item} {xs : List Item} {db db1 db' : Db} {p : Processed} {ps : List Processed}
      (now : Nat) : (nets x.network).clockFloor ≤ now →
      Returns (served (nets x.network) now) (process (nets x.network).strkey x.g x.op).run db
        (.ok p) db1 →
      ProcessAll xs db1 ps db' → ProcessAll (x :: xs) db (p :: ps) db'

/-- After the records `seen`, each new operation gets a row of its own and a repeated one is a
duplicate. -/
inductive Separate : List Item → List Item → List Processed → List Transaction → Prop
  | nil {seen : List Item} : Separate seen [] [] []
  | first {seen xs : List Item} {x : Item} {ps : List Processed} {rows : List Transaction}
      {t : Transaction}
      (attributed : Bool) : (∀ y ∈ seen, ¬ x.SameOperation y) → RowOf x t →
      Separate (x :: seen) xs ps rows →
      Separate seen (x :: xs) (.recorded attributed :: ps) (t :: rows)
  | again {seen xs : List Item} {x : Item} {ps : List Processed} {rows : List Transaction} :
      (∃ y ∈ seen, x.SameOperation y) → Separate seen xs ps rows →
      Separate seen (x :: xs) (.duplicate :: ps) rows

/-- Whatever of the records is processed, in whatever order and however often: each is recorded
once, in a row of its own, and only a record whose own operation was recorded before is a duplicate.
-/
def KeptApart (items : List Item) (db : Db) : Prop :=
  ∀ xs, (∀ x ∈ xs, x ∈ items) → (∃ ps db', ProcessAll nets xs db ps db') ∧
    ∀ ps db', ProcessAll nets xs db ps db' → ∃ rows, db'.transactions = db.transactions ++ rows ∧
      Separate [] xs ps rows

variable {nets}

/-! ### One record -/

variable {x y : Item} {now : Nat} {db db' : Db} {w : Toid × Credit × Int} {t : Transaction}

theorem clashes_deposit (hw : worth (nets x.network) x.g now x.op = some w) (t : Transaction) :
    Db.clashes (depositFor db x.g x.op w) t = x.taken t := by
  obtain ⟨toid, _, _⟩ := w
  obtain ⟨-, htoid, -⟩ := worth_eq_some.mp hw
  have hindex := decodeToid_index (filter_eq_some_iff.mp htoid).1
  have heq : toid.operationIndex = x.index := by
    unfold Item.index
    omega
  simp [Db.clashes, Item.taken, depositFor, newDeposit, heq, Item.hash]

theorem rowOf_deposit (hw : worth (nets x.network) x.g now x.op = some w) :
    RowOf x (db.depositRow (depositFor db x.g x.op w)) where
  walletId := rfl
  direction := rfl
  hash := rfl
  index := by
    obtain ⟨toid, _, _⟩ := w
    obtain ⟨-, htoid, -⟩ := worth_eq_some.mp hw
    have hindex := decodeToid_index (filter_eq_some_iff.mp htoid).1
    show some toid.operationIndex = some x.index
    unfold Item.index
    exact congrArg some (by omega)
  opId := rfl

theorem process_credits {p : Processed} (hx : Credits (nets x.network) x.g x.op)
    (hnow : (nets x.network).clockFloor ≤ now)
    (hret : Returns (served (nets x.network) now) (process (nets x.network).strkey x.g x.op).run db
      (.ok p) db') :
    (db.transactions.any x.taken = true ∧ p = .duplicate ∧ db' = db) ∨
      (db.transactions.any x.taken = false ∧ ∃ attributed t, p = .recorded attributed ∧ RowOf x t ∧
        db'.transactions = db.transactions ++ [t]) := by
  obtain ⟨w, hw⟩ := isSome_iff_exists.mp (hx.worth hnow)
  obtain ⟨p', hp, hout⟩ := (alone_process hnow x.op db).of_returns (fun _ _ => rfl) hret
  cases hp
  have hany : db.transactions.any x.taken = db.transactions.any
      (Db.clashes (depositFor db x.g x.op w)) := by
    congr 1
    funext t
    exact (clashes_deposit hw t).symm
  rw [hany]
  cases hout with
  | failed hn | skipped hn => rw [hw] at hn; cases hn
  | duplicate hw' hclash =>
    obtain rfl := some.inj (hw.symm.trans hw')
    exact .inl ⟨hclash, rfl, rfl⟩
  | recorded hw' hfree hrows =>
    obtain rfl := some.inj (hw.symm.trans hw')
    exact .inr ⟨hfree, _, _, rfl, rowOf_deposit hw, hrows⟩

theorem processAll_exists (nets : Network → Outside) (xs : List Item) (db : Db) :
    ∃ ps db', ProcessAll nets xs db ps db' := by
  induction xs generalizing db with
  | nil => exact ⟨[], db, .nil db⟩
  | cons x xs ih =>
    have hfloor : (nets x.network).clockFloor ≤ (nets x.network).clockFloor := le_rfl
    obtain ⟨r, db1, hret, p, rfl, -⟩ := (alone_process hfloor x.op db).exists_runs
    obtain ⟨ps, db', hrest⟩ := ih db1
    exact ⟨p :: ps, db', .cons _ le_rfl hret hrest⟩

/-! ### Keys -/

theorem taken_row (ht : RowOf y t) : x.taken t = true ↔ x.Clash y := by
  simp only [Item.taken, ht.hash, ht.index, ht.opId, Bool.or_eq_true, Bool.and_eq_true, beq_iff_eq,
    some.injEq]
  constructor
  · rintro (⟨hh, hi⟩ | hid)
    · exact .inr ⟨hh.symm, hi.symm⟩
    · exact .inl hid.symm
  · rintro (hid | ⟨hh, hi⟩)
    · exact .inr hid.symm
    · exact .inl ⟨hh.symm, hi.symm⟩

/-- The rows of the table that have a key of one of the records are those of the records seen. -/
def TakenBy (items seen : List Item) (db : Db) : Prop :=
  ∀ x ∈ items, (db.transactions.any x.taken = true ↔ x ∈ seen)

theorem TakenBy.record {items seen : List Item} (h : TakenBy items seen db)
    (hkeys : ∀ x ∈ items, x ≠ y → ¬ x.Clash y) (ht : RowOf y t)
    (hrows : db'.transactions = db.transactions ++ [t]) : TakenBy items (y :: seen) db' := by
  intro x hx
  rw [hrows, any_append, Bool.or_eq_true, h x hx, any_cons, any_nil, Bool.or_false, taken_row ht,
    mem_cons]
  by_cases hxy : x = y
  · subst hxy
    exact iff_of_true (.inr (.inl rfl)) (.inl rfl)
  · have hno := hkeys x hx hxy
    constructor
    · rintro (hs | hc)
      · exact .inr hs
      · exact absurd hc hno
    · rintro (he | hs)
      · exact absurd he hxy
      · exact .inl hs

/-- **The run**: by induction on the records still to be processed; what is in the table is what was
seen. -/
theorem separate_of_takenBy {items : List Item}
    (hcredits : ∀ x ∈ items, Credits (nets x.network) x.g x.op)
    (hdistinct : ∀ x ∈ items, ∀ y ∈ items, x ≠ y → ¬ x.SameOperation y)
    (hkeys : ∀ x ∈ items, ∀ y ∈ items, x ≠ y → ¬ x.Clash y) {xs seen : List Item}
    {ps : List Processed} (hxs : ∀ x ∈ xs, x ∈ items) (hseen : ∀ x ∈ seen, x ∈ items)
    (htaken : TakenBy items seen db) (hrun : ProcessAll nets xs db ps db') :
    ∃ rows, db'.transactions = db.transactions ++ rows ∧ Separate seen xs ps rows := by
  induction hrun generalizing seen with
  | nil => exact ⟨[], (append_nil _).symm, .nil⟩
  | @cons x xs db db1 db' p ps now hnow hret _ ih =>
    have hx := hxs x mem_cons_self
    have hrest : ∀ y ∈ xs, y ∈ items := (forall_mem_cons.mp hxs).2
    rcases process_credits (hcredits x hx) hnow hret with ⟨hdup, rfl, rfl⟩
      | ⟨hfree, attributed, t, rfl, ht, hrows⟩
    · obtain ⟨rows, hrows, hsep⟩ := ih hrest hseen htaken
      exact ⟨rows, hrows, .again ⟨x, (htaken x hx).mp hdup, rfl, rfl⟩ hsep⟩
    · have hnew : ∀ y ∈ seen, ¬ x.SameOperation y := by
        intro y hy
        refine hdistinct x hx y (hseen y hy) ?_
        rintro rfl
        rw [(htaken x hx).mpr hy] at hfree
        cases hfree
      have hseen' : ∀ y ∈ x :: seen, y ∈ items := by
        exact forall_mem_cons.mpr ⟨hx, hseen⟩
      obtain ⟨rows, hrows', hsep⟩ :=
        ih hrest hseen' (htaken.record (fun y hy => hkeys y hy x hx) ht hrows)
      refine ⟨t :: rows, ?_, .first attributed hnew ht hsep⟩
      rw [hrows', hrows, append_assoc]
      rfl

/-- **Two records that clash are collapsed**: the second one is a duplicate. -/
theorem collapsed (hx : Credits (nets x.network) x.g x.op) (hy : Credits (nets y.network) y.g y.op)
    (hfree : db.transactions.any x.taken = false) (hc : y.Clash x) :
    ∃ attributed t db', ProcessAll nets [x, y] db [.recorded attributed, .duplicate] db' ∧
      RowOf x t ∧ db'.transactions = db.transactions ++ [t] := by
  obtain ⟨ps, db', hrun⟩ := processAll_exists nets [x, y] db
  cases hrun with
  | @cons _ _ _ db1 _ p ps now hnow hret hrest =>
    cases hrest with
    | @cons _ _ _ db2 _ p' ps' now' hnow' hret' hnil =>
      have hnil' := hnil
      cases hnil
      rcases process_credits hx hnow hret with ⟨hdup, -, -⟩ | ⟨-, attributed, t, rfl, ht, hrows⟩
      · rw [hfree] at hdup
        cases hdup
      have htaken : db1.transactions.any y.taken = true := by
        rw [hrows]
        simp [(taken_row ht).mpr hc]
      rcases process_credits hy hnow' hret' with ⟨-, rfl, rfl⟩ | ⟨hfree', -⟩
      · exact ⟨attributed, t, _, .cons now hnow hret (.cons now' hnow' hret' hnil'), ht, hrows⟩
      · rw [htaken] at hfree'
        cases hfree'

/-- Distinct operations are kept apart, in every order, exactly if no two of them share a key. -/
theorem distinct_recorded_iff (nets : Network → Outside) (items : List Item) (db : Db)
    (hcredits : ∀ x ∈ items, Credits (nets x.network) x.g x.op)
    (hdistinct : ∀ x ∈ items, ∀ y ∈ items, x ≠ y → ¬ x.SameOperation y)
    (hfree : ∀ x ∈ items, db.transactions.any x.taken = false) :
    KeptApart nets items db ↔ ∀ x ∈ items, ∀ y ∈ items, x ≠ y → ¬ x.Clash y := by
  constructor
  · intro h x hx y hy hne hc
    obtain ⟨_, t, db', hrun, -, -⟩ :=
      collapsed (hcredits y hy) (hcredits x hx) (hfree y hy) hc
    have hsub : ∀ z ∈ [y, x], z ∈ items := by
      intro z hz
      rcases List.mem_cons.mp hz with rfl | hz
      · exact hy
      · rw [List.mem_singleton.mp hz]
        exact hx
    obtain ⟨_, -, hsep⟩ := (h [y, x] hsub).2 _ _ hrun
    cases hsep with
    | first _ _ _ hrest =>
      cases hrest with
      | again hseen =>
        obtain ⟨z, hz, hsame⟩ := hseen
        rw [List.mem_singleton.mp hz] at hsame
        exact hdistinct x hx y hy hne hsame
  · intro hkeys xs hxs
    refine ⟨processAll_exists nets xs db, fun ps db' hrun => ?_⟩
    refine separate_of_takenBy hcredits hdistinct hkeys hxs (fun _ h => nomatch h)
      (fun x hx => ?_) hrun
    rw [hfree x hx]
    exact iff_of_false Bool.false_ne_true List.not_mem_nil

end

/-! ### Two operations -/

/-- Ten lumens from `src` to the wallet by the operation `id`. -/
def tenLumensTo (g : Ingestor) (src id : String) (network : Network) (hash : Option String) :
    Item :=
  ⟨network, g, { examplePayment with
    id := id, pagingToken := id, transactionHash := hash, src := some src, dst := some g.accountG }⟩

theorem credits_tenLumensTo (g : Ingestor) (src : String) {id : String} (network : Network)
    (hash : Option String) (hid : (decodeToid id (plausibleMaxLedger 0)).isSome) :
    Credits exampleOutside g (tenLumensTo g src id network hash).op := by
  have hcredit : ∃ credit, creditOn exampleOutside g (tenLumensTo g src id network hash).op =
      some credit ∧ credit.amount = "10.0000000" := by
    simp [creditOn, claimKind, directCredit, tenLumensTo, examplePayment, isCreditKind,
      isPathPayment, creditedAmount]
  obtain ⟨credit, hcr, hamount⟩ := hcredit
  refine ⟨rfl, ?_, credit, 100000000, hcr, ?_, by decide⟩
  · obtain ⟨t, ht⟩ := isSome_iff_exists.mp hid
    exact isSome_iff_exists.mpr ⟨t, filter_eq_some_iff.mpr ⟨ht, rfl⟩⟩
  · rw [hamount]
    decide

/-- To wallet 1 on the test network: operation 1 of transaction 1 of ledger 3, and the same of
ledger 4. -/
def inLedger3 : Option String → Item :=
  tenLumensTo ⟨1, exampleAccount, false⟩ usdcTestnetIssuer "12884905985" .testnet
def inLedger4 : Option String → Item :=
  tenLumensTo ⟨1, exampleAccount, false⟩ usdcTestnetIssuer "17179873281" .testnet

/-- To wallet 2 on the main network: operation 1 of transaction 1 of ledger 3. -/
def onMainnet : Option String → Item :=
  tenLumensTo ⟨2, usdcTestnetIssuer, false⟩ exampleAccount "12884905985" .mainnet

variable (hash : Option String)

theorem credits_inLedger3 : Credits exampleOutside (inLedger3 hash).g (inLedger3 hash).op :=
  credits_tenLumensTo _ _ _ hash (by decide)

theorem credits_inLedger4 : Credits exampleOutside (inLedger4 hash).g (inLedger4 hash).op :=
  credits_tenLumensTo _ _ _ hash (by decide)

theorem credits_onMainnet : Credits exampleOutside (onMainnet hash).g (onMainnet hash).op :=
  credits_tenLumensTo _ _ _ hash (by decide)

/-- With their hashes the two are kept apart. -/
theorem two_ledgers_kept_apart : KeptApart (fun _ => exampleOutside)
    [inLedger3 (some "3389e9f0"), inLedger4 (some "b9d0b229")] exampleDb := by
  have hpair : ∀ x ∈ [inLedger3 (some "3389e9f0"), inLedger4 (some "b9d0b229")],
      ∀ y ∈ [inLedger3 (some "3389e9f0"), inLedger4 (some "b9d0b229")], x ≠ y →
      x.op.id ≠ y.op.id ∧ x.hash ≠ y.hash := by decide
  refine (distinct_recorded_iff (fun _ => exampleOutside)
    [inLedger3 (some "3389e9f0"), inLedger4 (some "b9d0b229")] exampleDb ?_ ?_ ?_).mpr ?_
  · intro x hx
    rcases List.mem_cons.mp hx with rfl | hx
    · exact credits_inLedger3 _
    · rw [List.mem_singleton.mp hx]
      exact credits_inLedger4 _
  · intro x hx y hy hne hsame
    exact (hpair x hx y hy hne).1 hsame.1
  · intro x _
    rfl
  · rintro x hx y hy hne (hid | ⟨hhash, -⟩)
    · exact (hpair x hx y hy hne).1 hid
    · exact (hpair x hx y hy hne).2 hhash

/-- Two operations without a hash and with one index, and two operations with one id on the two
networks: the second is taken for the first. -/
theorem distinct_operations_collapsed :
    (¬ (inLedger4 none).SameOperation (inLedger3 none) ∧
      ∃ attributed t db', ProcessAll (fun _ => exampleOutside) [inLedger3 none, inLedger4 none]
        exampleDb [.recorded attributed, .duplicate] db' ∧ RowOf (inLedger3 none) t ∧
        db'.transactions = [t]) ∧
    (¬ (onMainnet (some "b9d0b229")).SameOperation (inLedger3 (some "3389e9f0")) ∧
      ∃ attributed t db', ProcessAll (fun _ => exampleOutside)
        [inLedger3 (some "3389e9f0"), onMainnet (some "b9d0b229")]
        exampleDb [.recorded attributed, .duplicate] db' ∧ RowOf (inLedger3 (some "3389e9f0")) t ∧
        db'.transactions = [t]) := by
  refine ⟨⟨?_, ?_⟩, ?_, ?_⟩
  · rintro ⟨hid, -⟩
    exact absurd hid (by decide)
  · exact collapsed (credits_inLedger3 _) (credits_inLedger4 _) rfl (.inr ⟨rfl, by decide⟩)
  · rintro ⟨-, hnet⟩
    cases hnet
  · exact collapsed (credits_inLedger3 _) (credits_onMainnet _) rfl (.inl rfl)

end Octo.Ingest
