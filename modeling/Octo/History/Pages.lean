import Octo.Api.Error
import Octo.History.Csv
import Octo.Keyset.Pages

/-!
# Reading a wallet's history

`list_transactions_page` (`crates/store/src/ingest.rs`) returns the newest rows of a wallet before a
cursor, which is the id of a row.  The history endpoint (`crates/api/src/routes/wallets.rs`) asks
for one row more than a page, to tell whether there is another page; the CSV export
(`crates/api/src/routes/transactions_csv.rs`) takes a full batch to mean that there may be one.
Rows may be inserted, and columns updated, between two reads.

* `serves`: both ways to read are keyset pagination in the order of `(created_at, id)`, newest
  first.
-/

namespace Octo.History

open Keyset Octo.Api List

/-- The table `transactions`; its primary key is `id`. -/
structure Table where
  rows : List Transaction
  unique : rows.Pairwise (fun r r' => r.id ≠ r'.id)

structure TransactionFilter where
  direction : Option String
  status : Option String
  assetCode : Option String
  assetIssuer : Option String
  fromBound : Option Time
  toBound : Option Time
  deriving DecidableEq

/-- The conditions of the query on the columns; a null issuer equals nothing. -/
def TransactionFilter.admits (f : TransactionFilter) (r : Transaction) : Bool :=
  f.direction.all (fun d => r.direction == d) && f.status.all (fun s => r.status == s) &&
    f.assetCode.all (fun c => r.assetCode == c) &&
      f.assetIssuer.all (fun i => r.assetIssuer == some i) &&
    f.fromBound.all (fun t => decide (t ≤ r.createdAt)) &&
      f.toBound.all (fun t => decide (r.createdAt < t))

/-- The place of a row in the history: `ORDER BY created_at DESC, id DESC`. -/
def place (r : Transaction) : (Time ×ₗ Uuid)ᵒᵈ := OrderDual.toDual (toLex (r.createdAt, r.id))

section

variable (T : Table) (walletId : Uuid) (filter : TransactionFilter)

/-- `(created_at, id) < (SELECT created_at, id FROM transactions WHERE id = $2 AND wallet_id = $1)`;
the comparison with a row that is not there is null. -/
def afterCursor (beforeId : Option Uuid) (r : Transaction) : Bool :=
  match beforeId with
  | none => true
  | some id =>
    (T.rows.find? (fun c => c.id == id && c.walletId == walletId)).any (fun c =>
      decide (r.createdAt < c.createdAt) || (r.createdAt == c.createdAt && decide (r.id < c.id)))

/-- The query of `list_transactions_page` without its limit. -/
def listTransactionsBefore (beforeId : Option Uuid) : List Transaction :=
  orderBy place (T.rows.filter (fun r => r.walletId == walletId &&
    afterCursor T walletId beforeId r && filter.admits r))

def listTransactionsPage (limit : Nat) (beforeId : Option Uuid) : List Transaction :=
  (listTransactionsBefore T walletId filter beforeId).take limit

/-- `list_transactions`: a page, and the cursor of the next one. -/
def listTransactions (limit : Nat) (before : Option Uuid) : List Transaction × Option Uuid :=
  let rows := listTransactionsPage T walletId filter (limit + 1) before
  let hasMore := decide (limit < rows.length)
  let data := if hasMore then rows.take limit else rows
  (data, if hasMore then data.getLast?.map (·.id) else none)

end

/-! ### The export stream -/

def batchSize : Nat := 500

/-- Where the export is: header not yet sent, mid-history after a cursor, or finished. -/
inductive Cursor
  | start
  | after (before : Option Uuid)
  | done
  deriving DecidableEq

/-- The closure of `csv_stream`: the next chunk, or `none` at the end.  An error is
`export aborted`. -/
def csvNext (read : Option Uuid → Except StoreError (List Transaction)) :
    Cursor → Option (Except String (List Char) × Cursor)
  | .start => some (.ok headerRow, .after none)
  | .done => none
  | .after before =>
    match read before with
    | .error _ => some (.error "export aborted", .done)
    | .ok rows =>
      match rows.getLast? with
      | none => none
      | some last =>
        some (.ok (rows.flatMap writeRow), if rows.length < batchSize then .done
          else .after (some last.id))

/-- The stream, while it is read: its cursor until it has ended, the reads it has made, and the
chunks it has sent. -/
structure Export where
  cursor : Option Cursor
  reads : Nat
  chunks : List (Except String (List Char))

def Cursor.reads : Cursor → Nat
  | .after _ => 1
  | _ => 0

def Export.poll (read : Nat → Option Uuid → Except StoreError (List Transaction)) (e : Export) :
    Export :=
  match e.cursor with
  | none => e
  | some c =>
    match csvNext (read e.reads) c with
    | none => ⟨none, e.reads + c.reads, e.chunks⟩
    | some (chunk, c') => ⟨some c', e.reads + c.reads, e.chunks ++ [chunk]⟩

def exported (read : Nat → Option Uuid → Except StoreError (List Transaction)) : Nat → Export
  | 0 => ⟨some .start, 0, []⟩
  | k + 1 => (exported read k).poll read

/-! ### Reading on -/

section

variable (walletId : Uuid) (filter : TransactionFilter) (limit : Nat)

def storeFetch (T : Table) (before : Option Uuid) : List Transaction × Bool :=
  let rows := listTransactionsPage T walletId filter limit before
  (rows, decide (limit ≤ rows.length))

def apiFetch (T : Table) (before : Option Uuid) : List Transaction × Bool :=
  let response := listTransactions T walletId filter limit before
  (response.1, response.2.isSome)

def history (T : Table) : List Transaction :=
  orderBy place (T.rows.filter (fun r => r.walletId == walletId && filter.admits r))

end

/-- Between two reads no row is deleted, re-dated or moved to another wallet. -/
def Table.Grows (T T' : Table) : Prop :=
  ∀ r ∈ T.rows, ∃ r' ∈ T'.rows, r'.id = r.id ∧ r'.walletId = r.walletId ∧ r'.createdAt = r.createdAt

/-! ### The order of the history -/

variable {r r' : Transaction}

theorem place_lt_iff :
    place r < place r' ↔ r'.createdAt < r.createdAt ∨ r'.createdAt = r.createdAt ∧
    r'.id < r.id := by
  rw [place, place, OrderDual.toDual_lt_toDual, Prod.Lex.toLex_lt_toLex]

theorem place_inj (h : place r = place r') : r.createdAt = r'.createdAt ∧ r.id = r'.id := by
  have h' := toLex.injective (OrderDual.toDual.injective h)
  exact ⟨congrArg Prod.fst h', congrArg Prod.snd h'⟩

theorem Table.distinct (T : Table) : Distinct place T.rows :=
  T.unique.imp (fun hne h => hne (place_inj h).2)

theorem Table.eq_of_id (T : Table) (hr : r ∈ T.rows) (hr' : r' ∈ T.rows) (h : r.id = r'.id) :
    r = r' :=
  inj_on_of_nodup_map (pairwise_map.mpr T.unique) hr hr' h

theorem afterCursor_of_mem {T : Table} {walletId : Uuid} {c : Transaction} (hc : c ∈ T.rows)
    (hw : c.walletId = walletId) (r : Transaction) :
    afterCursor T walletId (some c.id) r = decide (place c < place r) := by
  have hfind : T.rows.find? (fun c' => c'.id == c.id && c'.walletId == walletId) = some c := by
    cases hf : T.rows.find? (fun c' => c'.id == c.id && c'.walletId == walletId) with
    | none => exact absurd (find?_eq_none.mp hf c hc) (by simp [hw])
    | some =>
      have hid := find?_some hf
      simp only [Bool.and_eq_true, beq_iff_eq] at hid
      rw [T.eq_of_id (mem_of_find?_eq_some hf) hc hid.1]
  rw [Bool.eq_iff_iff]
  simp only [afterCursor, hfind, Option.any_some, Bool.or_eq_true, Bool.and_eq_true,
    decide_eq_true_eq, beq_iff_eq, place_lt_iff]

/-! ### Both ways to read are keyset pagination -/

section

variable {walletId : Uuid} {filter : TransactionFilter} {limit : Nat} {T : Nat → Table}
  {fetch : Table → Option Uuid → List Transaction × Bool} {n N : Nat} {before : Option Uuid}

theorem mem_listTransactionsBefore {T : Table} {r : Transaction}
    (h : r ∈ listTransactionsBefore T walletId filter before) :
    r ∈ T.rows ∧ r.walletId = walletId := by
  rw [listTransactionsBefore, mem_orderBy, mem_filter] at h
  simp only [Bool.and_eq_true, beq_iff_eq] at h
  exact ⟨h.1, h.2.1.1⟩

theorem listTransactionsBefore_eq (T : Table) (before : Option Uuid) :
    listTransactionsBefore T walletId filter before =
      (history walletId filter T).filter (afterCursor T walletId before) := by
  rw [listTransactionsBefore, history, filter_orderBy (T.distinct.filter _), filter_filter]
  congr 1
  refine filter_congr (fun r _ => ?_)
  rw [Bool.and_comm (r.walletId == walletId), Bool.and_assoc]

/-- A way to read: a prefix of what is left, a full page if there may be more, and everything at the
end. -/
structure Reads (walletId : Uuid) (filter : TransactionFilter) (limit : Nat)
    (fetch : Table → Option Uuid → List Transaction × Bool) : Prop where
  takes : ∀ T before, (fetch T before).1 = listTransactionsPage T walletId filter limit before
  full : ∀ T before, (fetch T before).2 = true →
    limit ≤ (listTransactionsBefore T walletId filter before).length
  whole : ∀ T before, (fetch T before).2 = false →
    (listTransactionsBefore T walletId filter before).length ≤ limit

theorem reads_storeFetch : Reads walletId filter limit (storeFetch walletId filter limit) where
  takes := fun _ _ => rfl
  full := fun T before h => by
    have hle : limit ≤ (listTransactionsPage T walletId filter limit before).length :=
      of_decide_eq_true h
    rw [listTransactionsPage, length_take] at hle
    omega
  whole := fun T before h => by
    have hlt : ¬ limit ≤ (listTransactionsPage T walletId filter limit before).length :=
      of_decide_eq_false h
    rw [listTransactionsPage, length_take] at hlt
    omega

theorem listTransactions_eq (T : Table) (before : Option Uuid) :
    listTransactions T walletId filter limit before =
      (listTransactionsPage T walletId filter limit before,
        if limit < (listTransactionsBefore T walletId filter before).length then
          (listTransactionsPage T walletId filter limit before).getLast?.map (·.id)
        else none) := by
  unfold listTransactions listTransactionsPage
  simp only [length_take, take_take, decide_eq_true_eq]
  by_cases h : limit < (listTransactionsBefore T walletId filter before).length
  · have hmin : limit < min (limit + 1)
        (listTransactionsBefore T walletId filter before).length := by omega
    have htake : min limit (limit + 1) = limit := by omega
    simp only [hmin, h, if_true, htake]
  · have hmin : ¬ limit < min (limit + 1)
        (listTransactionsBefore T walletId filter before).length := by omega
    rw [if_neg hmin, if_neg hmin, if_neg h, take_of_length_le (by omega),
      take_of_length_le (by omega)]

theorem reads_apiFetch (hlimit : 1 ≤ limit) :
    Reads walletId filter limit (apiFetch walletId filter limit) where
  takes := fun T before => by rw [apiFetch, listTransactions_eq]
  full := fun T before h => by
    rw [apiFetch, listTransactions_eq] at h
    by_contra hlt
    rw [if_neg (by omega)] at h
    cases h
  whole := fun T before h => by
    by_contra hlt
    rw [apiFetch, listTransactions_eq, if_pos (by omega)] at h
    have hnil : listTransactionsPage T walletId filter limit before = [] := by simpa using h
    have hlen := congrArg length hnil
    rw [listTransactionsPage, length_take, length_nil] at hlen
    omega

section

variable (hf : Reads walletId filter limit fetch) (hlimit : 1 ≤ limit)
include hf hlimit

theorem Reads.page_ne_nil (hmore : more (·.id) fetch T n = true) : page (·.id) fetch T n ≠ [] := by
  intro hnil
  have hle := hf.full _ _ hmore
  have hlen := congrArg length ((hf.takes _ _).symm.trans hnil)
  rw [listTransactionsPage, length_take, length_nil] at hlen
  omega

theorem Reads.afterCursor_eq (hgrow : ∀ n, (T n).Grows (T (n + 1))) (hn : Reached (·.id) fetch T n)
    (r : Transaction) :
    afterCursor (T n) walletId (cursor (·.id) fetch T n) r = beyond place
      (bound place (·.id) fetch T n) r := by
  cases n with
  | zero => rfl
  | succ n =>
    have hne := hf.page_ne_nil hlimit (hn n (Nat.lt_succ_self n))
    obtain ⟨_, c, hpage⟩ := (eq_nil_or_concat' (page (·.id) fetch T n)).resolve_left hne
    have hc : c ∈ page (·.id) fetch T n := by simp [hpage]
    rw [page, hf.takes] at hc
    obtain ⟨hrow, hwallet⟩ := mem_listTransactionsBefore (mem_of_mem_take hc)
    -- the row is still there, at its place
    obtain ⟨c', hc', hid, hw, hat⟩ := hgrow n c hrow
    have hplace : place c' = place c := by rw [place, place, hid, hat]
    have hcursor : cursor (·.id) fetch T (n + 1) = some c'.id := by
      show (page (·.id) fetch T n).getLast?.map (·.id) = _
      rw [hpage, hid]
      simp
    have hbound : bound place (·.id) fetch T (n + 1) = some (place c) := by simp [bound, hpage]
    rw [hcursor, afterCursor_of_mem hc' (hw.trans hwallet), hbound, hplace]
    rfl

theorem Reads.serves (hgrow : ∀ n, (T n).Grows (T (n + 1))) :
    Serves place (·.id) fetch T (history walletId filter) := by
  have hrest : ∀ n, Reached (·.id) fetch T n →
      listTransactionsBefore (T n) walletId filter (cursor (·.id) fetch T n) =
        rest place (·.id) fetch T (history walletId filter) n := by
    intro n hn
    rw [listTransactionsBefore_eq]
    exact filter_congr (fun r _ => hf.afterCursor_eq hlimit hgrow hn r)
  refine ⟨fun n => orderBy_sorted ((T n).distinct.filter _), fun n hn => ?_, fun n hn hlast => ?_,
    fun n _ => hf.page_ne_nil hlimit⟩
  · rw [page, hf.takes, listTransactionsPage, hrest n hn]
    exact take_prefix _ _
  · rw [page, hf.takes, listTransactionsPage, take_of_length_le (hf.whole _ _ hlast), hrest n hn]

end

/-! ### Nothing is lost -/

def Throughout (walletId : Uuid) (filter : TransactionFilter) (T : Nat → Table) (N : Nat)
    (id : Uuid) : Prop :=
  ∀ n ≤ N, ∃ r ∈ (T n).rows, r.id = id ∧ r.walletId = walletId ∧ filter.admits r = true

structure Lossless (walletId : Uuid) (filter : TransactionFilter) (T : Nat → Table) (N : Nat)
    (out : List Transaction) : Prop where
  descending : out.Pairwise (fun r r' =>
    r'.createdAt < r.createdAt ∨ r'.createdAt = r.createdAt ∧ r'.id < r.id)
  nodup : (out.map (·.id)).Nodup
  sound : ∀ r ∈ out, ∃ n ≤ N, r ∈ (T n).rows ∧ r.walletId = walletId ∧ filter.admits r = true
  complete : ∀ id, Throughout walletId filter T N id → (out.map (·.id)).count id = 1

theorem mem_history {T : Table} {r : Transaction} :
    r ∈ history walletId filter T ↔ r ∈ T.rows ∧ r.walletId = walletId ∧
    filter.admits r = true := by
  rw [history, mem_orderBy, mem_filter, Bool.and_eq_true, beq_iff_eq]

theorem grows_later (hgrow : ∀ n, (T n).Grows (T (n + 1))) {m n : Nat} (hmn : m ≤ n) :
    (T m).Grows (T n) := by
  induction hmn with
  | refl => exact fun r hr => ⟨r, hr, rfl, rfl, rfl⟩
  | step _ ih =>
    intro r hr
    obtain ⟨r1, hr1, hid1, hw1, hat1⟩ := ih r hr
    obtain ⟨r2, hr2, hid2, hw2, hat2⟩ := hgrow _ r1 hr1
    exact ⟨r2, hr2, hid2.trans hid1, hw2.trans hw1, hat2.trans hat1⟩

theorem place_eq (hgrow : ∀ n, (T n).Grows (T (n + 1))) {m n : Nat} {r r' : Transaction}
    (hr : r ∈ (T m).rows) (hr' : r' ∈ (T n).rows) (hid : r.id = r'.id) : place r = place r' := by
  have hat : r.createdAt = r'.createdAt := by
    rcases Nat.le_total m n with hmn | hmn
    · obtain ⟨r1, hr1, hid1, -, hat1⟩ := grows_later hgrow hmn r hr
      rw [← (T n).eq_of_id hr1 hr' (hid1.trans hid), hat1]
    · obtain ⟨r1, hr1, hid1, -, hat1⟩ := grows_later hgrow hmn r' hr'
      rw [← (T m).eq_of_id hr1 hr (hid1.trans hid.symm), hat1]
  rw [place, place, hat, hid]

/-- **Reading to the end is lossless.** -/
theorem Reads.lossless (hf : Reads walletId filter limit fetch) (hlimit : 1 ≤ limit)
    (hgrow : ∀ n, (T n).Grows (T (n + 1))) (hN : EndsAt (·.id) fetch T N) :
    Lossless walletId filter T N (returned (·.id) fetch T (N + 1)) := by
  have hs := hf.serves hlimit hgrow
  have hsorted := hs.returned_sorted hN.1
  have hsound : ∀ r ∈ returned (·.id) fetch T (N + 1),
      ∃ n ≤ N, r ∈ (T n).rows ∧ r.walletId = walletId ∧ filter.admits r = true := by
    intro r hr
    obtain ⟨n, hn, -, hrow⟩ := hs.mem_rows hN.1 hr
    exact ⟨n, hn, mem_history.mp hrow⟩
  have hnodup : ((returned (·.id) fetch T (N + 1)).map (·.id)).Nodup := by
    refine pairwise_map.mpr (hsorted.imp_of_mem (fun {r r'} hr hr' hlt hid => ?_))
    obtain ⟨n, -, hrow, -⟩ := hsound r hr
    obtain ⟨n', -, hrow', -⟩ := hsound r' hr'
    exact absurd hlt (place_eq hgrow hrow hrow' hid ▸ lt_irrefl _)
  refine ⟨hsorted.imp place_lt_iff.mp, hnodup, hsound, fun id hid => ?_⟩
  obtain ⟨r0, hr0, rfl, -⟩ := hid 0 (Nat.zero_le N)
  -- the row is in the history at every read, at one place
  obtain ⟨r, hr, hplace⟩ := hs.mem_returned hN (fun n hn => by
    obtain ⟨r, hr, hrid, hmatch⟩ := hid n hn
    exact ⟨r, mem_history.mpr ⟨hr, hmatch⟩, place_eq hgrow hr hr0 hrid⟩)
  refine count_eq_one_of_mem hnodup (mem_map.mpr ⟨r, hr, (place_inj hplace).2⟩)

/-- **Reading comes to an end**, whatever is inserted meanwhile. -/
theorem Reads.ends (hf : Reads walletId filter limit fetch) (hlimit : 1 ≤ limit)
    (hgrow : ∀ n, (T n).Grows (T (n + 1))) : ∃ N, EndsAt (·.id) fetch T N :=
  (hf.serves hlimit hgrow).exists_endsAt (Set.wellFoundedOn_univ.mpr wellFounded_gt)
    (fun _ _ _ => Set.mem_univ _)

/-! ### What the export sends -/

def batch (walletId : Uuid) (filter : TransactionFilter) (T : Nat → Table) (n : Nat)
    (before : Option Uuid) : Except StoreError (List Transaction) :=
  .ok (listTransactionsPage (T n) walletId filter batchSize before)

theorem csvNext_batch {rows : List Transaction}
    {read : Option Uuid → Except StoreError (List Transaction)} (h : read before = .ok rows) :
    csvNext read (.after before) = rows.getLast?.map (fun last =>
      (.ok (rows.flatMap writeRow), if rows.length < batchSize then .done
        else .after (some last.id))) := by
  unfold csvNext
  dsimp only
  rw [h]
  dsimp only
  cases rows.getLast? <;> rfl

/-- The rows that the `n`-th read of the export finds. -/
abbrev sentRows (walletId : Uuid) (filter : TransactionFilter) (T : Nat → Table) (n : Nat) :
    List Transaction :=
  page (·.id) (storeFetch walletId filter batchSize) T n

theorem csvNext_page (n : Nat) :
    csvNext (batch walletId filter T n)
      (.after (cursor (·.id) (storeFetch walletId filter batchSize) T n)) =
      (sentRows walletId filter T n).getLast?.map (fun last =>
        (.ok ((sentRows walletId filter T n).flatMap writeRow),
          if (sentRows walletId filter T n).length < batchSize then .done
            else .after (some last.id))) := by
  have hread : batch walletId filter T n
      (cursor (·.id) (storeFetch walletId filter batchSize) T n) =
      .ok (sentRows walletId filter T n) := rfl
  exact csvNext_batch hread

theorem exported_reached (hn : Reached (·.id) (storeFetch walletId filter batchSize) T n) :
    exported (batch walletId filter T) (n + 1) =
      ⟨some (.after (cursor (·.id) (storeFetch walletId filter batchSize) T n)), n,
        .ok headerRow :: (range n).map
          (fun m => .ok ((sentRows walletId filter T m).flatMap writeRow))⟩ := by
  induction n with
  | zero => rfl
  | succ n ih =>
    have hmore := hn n (Nat.lt_succ_self n)
    have hfull : ¬ (sentRows walletId filter T n).length < batchSize :=
      Nat.not_lt.mpr (of_decide_eq_true hmore)
    have hne := reads_storeFetch.page_ne_nil (by decide) hmore
    obtain ⟨_, last, hpage⟩ :=
      (eq_nil_or_concat' (sentRows walletId filter T n)).resolve_left hne
    have hlast : (sentRows walletId filter T n).getLast? = some last := by simp [hpage]
    have hcursor : cursor (·.id) (storeFetch walletId filter batchSize) T (n + 1) =
        some last.id := by
      show (sentRows walletId filter T n).getLast?.map (·.id) = _
      rw [hlast]
      rfl
    have hnext : csvNext (batch walletId filter T n)
        (.after (cursor (·.id) (storeFetch walletId filter batchSize) T n)) =
        some (.ok ((sentRows walletId filter T n).flatMap writeRow), .after (some last.id)) := by
      rw [csvNext_page, hlast, Option.map_some, if_neg hfull]
    rw [exported, ih hn.prev, Export.poll]
    dsimp only
    rw [hnext, hcursor, range_succ, map_append]
    rfl

theorem flatten_texts (n : Nat) :
    (headerRow :: (range n).map
      (fun m => (sentRows walletId filter T m).flatMap writeRow)).flatten =
      exportText (returned (·.id) (storeFetch walletId filter batchSize) T n) := by
  rw [flatten_cons, exportText, returned, flatMap_assoc, flatMap_def]

theorem csv_text (hN : EndsAt (·.id) (storeFetch walletId filter batchSize) T N) :
    ∃ texts : List (List Char), exported (batch walletId filter T) (N + 3) =
      ⟨none, N + 1, texts.map .ok⟩ ∧
      texts.flatten = exportText
        (returned (·.id) (storeFetch walletId filter batchSize) T (N + 1)) := by
  have hshort : (sentRows walletId filter T N).length < batchSize :=
    Nat.not_le.mp (of_decide_eq_false hN.2)
  have hbefore := exported_reached hN.1
  have hnext : csvNext (batch walletId filter T N)
      (.after (cursor (·.id) (storeFetch walletId filter batchSize) T N)) = _ := csvNext_page N
  cases hlast : (sentRows walletId filter T N).getLast? with
  | none =>
    -- an empty batch: nothing is sent for it
    have hnil : page _ _ T N = [] := getLast?_eq_none_iff.mp hlast
    refine ⟨headerRow :: (range N).map (fun m => (sentRows walletId filter T m).flatMap writeRow),
      ?_, ?_⟩
    · rw [hlast] at hnext
      rw [exported, exported, hbefore]
      simp only [Export.poll, hnext, map_cons, map_map]
      rfl
    · rw [flatten_texts, returned_succ, hnil, append_nil]
  | some =>
    refine ⟨headerRow :: (range (N + 1)).map (fun m =>
      (sentRows walletId filter T m).flatMap writeRow), ?_, flatten_texts (N + 1)⟩
    rw [hlast, Option.map_some, if_pos hshort] at hnext
    rw [exported, exported, hbefore]
    simp only [Export.poll, hnext, map_cons, map_map, range_succ, map_append]
    rfl

end

/-! ### The three ways to read -/

/-- **The history is read without loss**, by the store's pages, by the endpoint's and by the export:
the reading ends, every row that satisfies the filter throughout is returned once, none is returned
twice, and they come newest first; and the export is read as a record for each of them. -/
theorem history_lossless (walletId : Uuid) (filter : TransactionFilter) {limit : Nat}
    (hlimit : 1 ≤ limit) {T : Nat → Table} (hgrow : ∀ n, (T n).Grows (T (n + 1))) :
    (∃ N, EndsAt (·.id) (storeFetch walletId filter limit) T N ∧ Lossless walletId filter T N
      (returned (·.id) (storeFetch walletId filter limit) T (N + 1))) ∧
    (∃ N, EndsAt (·.id) (apiFetch walletId filter limit) T N ∧ Lossless walletId filter T N
      (returned (·.id) (apiFetch walletId filter limit) T (N + 1))) ∧
    ∃ N k out, ∃ texts : List (List Char),
      exported (batch walletId filter T) k = ⟨none, N + 1, texts.map .ok⟩ ∧
        texts.flatten = exportText out ∧
        Csv.read texts.flatten = some (columns.map String.toList :: out.map fields) ∧
        Lossless walletId filter T N out := by
  refine ⟨?_, ?_, ?_⟩
  · obtain ⟨N, hN⟩ := reads_storeFetch.ends hlimit hgrow
    exact ⟨N, hN, reads_storeFetch.lossless hlimit hgrow hN⟩
  · obtain ⟨N, hN⟩ := (reads_apiFetch hlimit).ends hlimit hgrow
    exact ⟨N, hN, (reads_apiFetch hlimit).lossless hlimit hgrow hN⟩
  · have hbatch : 1 ≤ batchSize := by decide
    obtain ⟨N, hN⟩ := reads_storeFetch.ends hbatch hgrow
    obtain ⟨texts, hexport, htext⟩ := csv_text hN
    refine ⟨N, N + 3, _, texts, hexport, htext, ?_, reads_storeFetch.lossless hbatch hgrow hN⟩
    rw [htext, read_exportText]

def exampleDeposit (id : Uuid) (createdAt : Time) : Transaction where
  id := id
  walletId := 1
  addressId := none
  direction := "deposit"
  assetCode := "native"
  assetIssuer := none
  amountStroops := 100
  sourceAccount := none
  destinationAccount := none
  stellarTxHash := none
  operationIndex := none
  ledger := none
  memoId := none
  status := "confirmed"
  reference := none
  createdAt := createdAt

/-- Two deposits; a third one, dated between them, is inserted after the first read. -/
def exampleTables : Nat → Table
  | 0 => ⟨[exampleDeposit 1 10, exampleDeposit 2 20], by decide⟩
  | _ + 1 => ⟨[exampleDeposit 1 10, exampleDeposit 2 20, exampleDeposit 3 15], by decide⟩

theorem exampleTables_grows (n : Nat) : (exampleTables n).Grows (exampleTables (n + 1)) := by
  intro r hr
  refine ⟨r, ?_, rfl, rfl, rfl⟩
  cases n with
  | zero => exact mem_append_left [exampleDeposit 3 15] hr
  | succ => exact hr

def exampleFilter : TransactionFilter := ⟨some "deposit", none, none, none, none, none⟩

/-- The deposits are read one by one, and exported. -/
theorem exampleTables_lossless :
    (∃ N, EndsAt (·.id) (apiFetch 1 exampleFilter 1) exampleTables N ∧
      Lossless 1 exampleFilter exampleTables N
        (returned (·.id) (apiFetch 1 exampleFilter 1) exampleTables (N + 1))) ∧
    ∃ N out text, Lossless 1 exampleFilter exampleTables N out ∧
      Csv.read text = some (columns.map String.toList :: out.map fields) := by
  obtain ⟨-, hapi, N, k, out, texts, -, -, hread, hlossless⟩ :=
    history_lossless 1 exampleFilter Nat.one_pos exampleTables_grows
  exact ⟨hapi, N, out, texts.flatten, hlossless, hread⟩

end Octo.History
