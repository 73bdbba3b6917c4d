import Octo.Store.Sponsorship

/-!
# The day of the sponsorship budget

The three queries that count today's fees (`crates/store/src/sponsorship.rs`) compare `created_at`,
a `timestamptz`, with `date_trunc('day', now() AT TIME ZONE 'UTC')`, a `timestamp` without time
zone.  Postgres reads the latter in the time zone of the session, so the day begins at UTC midnight
only in a session that is at offset 0.
-/

namespace Octo.Sponsor

/-! ### Timestamps without a time zone -/

/-- A `timestamp`: what a clock shows, in microseconds since 1970-01-01 00:00 on that clock. -/
abbrev Timestamp := Int

def atTimeZoneUtc (t : Time) : Timestamp := t

def dateTruncDay (ts : Timestamp) : Timestamp := ts / dayLength * dayLength

/-- The instant at which the clocks of a session show `ts`; `offset` is what they are ahead of UTC,
in microseconds. -/
def asTimestamptz (offset : Int) (ts : Timestamp) : Int := ts - offset

theorem dateTruncDay_atTimeZoneUtc (t : Time) :
    dateTruncDay (atTimeZoneUtc t) = (dayStart t : Int) := by
  simp [dateTruncDay, atTimeZoneUtc, dayStart, dayOf]

/-! ### The queries -/

/-- The `WHERE` clause of the three queries, in a session at `offset`. -/
def isToday (offset : Int) (now : Time) (walletId : Uuid) (r : SponsoredTransaction) : Bool :=
  r.walletId == walletId && r.isCounted &&
    decide (asTimestamptz offset (dateTruncDay (atTimeZoneUtc now)) ≤ (r.createdAt : Int))

def countedToday (offset : Int) (now : Time) (walletId : Uuid) (rows : List SponsoredTransaction) :
    List SponsoredTransaction :=
  rows.filter (isToday offset now walletId)

/-- `COALESCE(SUM(fee_stroops), 0)::bigint`; the cast may overflow. -/
def bigintSum (rows : List SponsoredTransaction) : Except StoreError Int :=
  let total := (rows.map (·.feeStroops)).sum
  if total < i64Min ∨ i64Max < total then .error .database else .ok total

section

variable (db : SponsorDb) (offset : Int)

def sumSponsoredFeesReservedToday (walletId : Uuid) : Except StoreError Int :=
  bigintSum (countedToday offset db.now walletId db.sponsored)

def sponsorshipProjectionAt (walletId : Uuid) (innerTxHash : String) :
    Except StoreError (Int × Bool) :=
  (bigintSum (countedToday offset db.now walletId db.sponsored)).map
    (fun total => (total, db.sponsored.any (fun r => r.innerTxHash == innerTxHash)))

def reserveSnapshotAt (tx : Nat) (walletId : Uuid) : Except StoreError Unit × SponsorDb :=
  match db.sessions tx with
  | some ⟨startedAt, locks, .idle⟩ =>
    match bigintSum (countedToday offset startedAt walletId db.sponsored) with
    | .error e => (.error e, db)
    | .ok total => (.ok (), db.setSession tx ⟨startedAt, locks, .summed walletId total⟩)
  | _ => (.error .database, db)

end

/-! ### Sessions at UTC -/

/-- The wallet's pending and confirmed rows since the last UTC midnight. -/
def utcToday (now : Time) (walletId : Uuid) (rows : List SponsoredTransaction) :
    List SponsoredTransaction :=
  rows.filter (fun r => r.walletId == walletId && r.isCounted &&
    decide (dayStart now ≤ r.createdAt))

theorem countedToday_zero (now : Time) (walletId : Uuid) (rows : List SponsoredTransaction) :
    countedToday 0 now walletId rows = utcToday now walletId rows := by
  refine List.filter_congr (fun r _ => ?_)
  simp only [isToday, asTimestamptz, dateTruncDay_atTimeZoneUtc, Int.sub_zero, Int.ofNat_le]

theorem sum_utcToday (now : Time) (walletId : Uuid) (rows : List SponsoredTransaction) :
    ((utcToday now walletId rows).map (·.feeStroops)).sum = feesSince rows walletId
      (dayStart now) :=
  rfl

/-- At offset 0 the reservation is that of `Octo.Store.Sponsorship`. -/
theorem reserveSnapshotAt_zero (db : SponsorDb) (tx : Nat) (walletId : Uuid) :
    reserveSnapshotAt db 0 tx walletId = db.reserveSnapshot tx walletId := by
  unfold reserveSnapshotAt SponsorDb.reserveSnapshot
  cases db.sessions tx with
  | none => rfl
  | some q =>
    obtain ⟨startedAt, _, phase⟩ := q
    cases phase with
    | idle =>
      dsimp only
      rw [countedToday_zero, bigintSum, sum_utcToday]
      by_cases h : feesSince db.sponsored walletId (dayStart startedAt) < i64Min ∨
          i64Max < feesSince db.sponsored walletId (dayStart startedAt)
      · simp only [if_pos h]
      · simp only [if_neg h]
    | summed => rfl
    | inserted => rfl

theorem sponsorshipProjectionAt_zero (db : SponsorDb) (walletId : Uuid) (innerTxHash : String) :
    sponsorshipProjectionAt db 0 walletId innerTxHash = db.sponsorshipProjection walletId
      innerTxHash := by
  unfold sponsorshipProjectionAt SponsorDb.sponsorshipProjection
  simp only [countedToday_zero, bigintSum, sum_utcToday]
  split <;> rfl

/-! ### Sessions elsewhere -/

def BetweenMidnights (offset : Int) (now : Time) (r : SponsoredTransaction) : Prop :=
  ((dayStart now : Int) ≤ r.createdAt ∧ (r.createdAt : Int) < dayStart now - offset) ∨
    ((dayStart now : Int) - offset ≤ r.createdAt ∧ (r.createdAt : Int) < dayStart now)

theorem isToday_iff_not_between {offset : Int} {now : Time} {walletId : Uuid}
    {r : SponsoredTransaction} (hwallet : r.walletId = walletId) (hcounted : r.isCounted = true) :
    (isToday offset now walletId r = true ↔ dayStart now ≤ r.createdAt) ↔
    ¬ BetweenMidnights offset now r := by
  simp only [isToday, asTimestamptz, dateTruncDay_atTimeZoneUtc, hwallet, hcounted,
    BetweenMidnights, BEq.rfl, Bool.true_and, decide_eq_true_eq, ← Int.ofNat_le]
  omega

theorem countedToday_eq_iff (offset : Int) (now : Time) (walletId : Uuid)
    (rows : List SponsoredTransaction) :
    countedToday offset now walletId rows = utcToday now walletId rows ↔
      ∀ r ∈ rows, r.walletId = walletId → r.isCounted = true → ¬ BetweenMidnights offset now r := by
  constructor
  · intro h r hr hwallet hcounted
    rw [← isToday_iff_not_between hwallet hcounted]
    have hmem : r ∈ countedToday offset now walletId rows ↔ r ∈ utcToday now walletId rows := by
      rw [h]
    simpa [countedToday, utcToday, hr, hwallet, hcounted] using hmem
  · intro h
    refine List.filter_congr (fun r hr => ?_)
    by_cases hrow : r.walletId = walletId ∧ r.isCounted = true
    · have hsame := (isToday_iff_not_between hrow.1 hrow.2).mpr (h r hr hrow.1 hrow.2)
      rw [Bool.eq_iff_iff, hsame]
      simp [hrow.1, hrow.2]
    · -- neither filter looks at the time of such a row
      have hfalse : (r.walletId == walletId && r.isCounted) = false := by
        simpa using hrow
      simp [isToday, hfalse]

/-- The reservation of a transaction that began at `now` depends on the offset through the rows it
counts. -/
theorem reserveSnapshotAt_congr {db : SponsorDb} {offset : Int} {now : Time} {walletId : Uuid}
    {tx : Nat} (htx : (db.sessions tx).map (·.startedAt) = some now)
    (h : countedToday offset now walletId db.sponsored = utcToday now walletId db.sponsored) :
    reserveSnapshotAt db offset tx walletId = db.reserveSnapshot tx walletId := by
  obtain ⟨⟨_, _, phase⟩, hq, hstart⟩ := Option.map_eq_some_iff.mp htx
  rw [← countedToday_zero, ← hstart] at h
  rw [← reserveSnapshotAt_zero]
  simp only [reserveSnapshotAt, hq]
  cases phase with
  | idle => dsimp only at h ⊢; rw [h]
  | summed | inserted => rfl

/-- **The budget day is the UTC day** exactly if none of the wallet's pending or confirmed rows was
created between UTC midnight and the midnight of the session.  Then the sum, the projection and the
reservation are those of a session at UTC; a reservation takes the time at which its transaction
began. -/
theorem counts_utc_day_iff (offset : Int) (now : Time) (walletId : Uuid)
    (rows : List SponsoredTransaction) :
    (countedToday offset now walletId rows = utcToday now walletId rows ↔
      ∀ r ∈ rows, r.walletId = walletId → r.isCounted = true → ¬ BetweenMidnights offset now r) ∧
    ((∀ r ∈ rows, r.walletId = walletId → r.isCounted = true → ¬ BetweenMidnights offset now r) →
      ∀ db : SponsorDb, db.sponsored = rows →
        (db.now = now →
          sumSponsoredFeesReservedToday db offset walletId = bigintSum
            (utcToday now walletId rows) ∧
          ∀ hash, sponsorshipProjectionAt db offset walletId hash =
            db.sponsorshipProjection walletId hash) ∧
        ∀ tx, (db.sessions tx).map (·.startedAt) = some now →
          reserveSnapshotAt db offset tx walletId = db.reserveSnapshot tx walletId) := by
  refine ⟨countedToday_eq_iff offset now walletId rows, ?_⟩
  rintro hrows db rfl
  have hsame := (countedToday_eq_iff offset now walletId db.sponsored).mpr hrows
  refine ⟨?_, fun tx htx => reserveSnapshotAt_congr htx hsame⟩
  rintro rfl
  refine ⟨by rw [sumSponsoredFeesReservedToday, hsame], fun hash => ?_⟩
  rw [← sponsorshipProjectionAt_zero, sponsorshipProjectionAt, sponsorshipProjectionAt, hsame,
    countedToday_zero]

def hour : Nat := 3600000000

def reservedAt (createdAt : Time) : SponsoredTransaction :=
  ⟨7, 1, "ca94", none, 100, .confirmed, none, createdAt⟩

/-- **A day that is shifted.**  At 02:00 UTC, in a session eight hours behind UTC, a reservation of
01:00 UTC is not counted: the day of the session begins at 08:00 UTC.  In a session five and a half
hours ahead a reservation of the evening before is still counted. -/
theorem shifted_day :
    utcToday (20000 * dayLength + 2 * hour) 1 [reservedAt (20000 * dayLength + hour)] =
        [reservedAt (20000 * dayLength + hour)] ∧
      countedToday (-8 * hour) (20000 * dayLength + 2 * hour) 1
        [reservedAt (20000 * dayLength + hour)] = [] ∧
      utcToday (20000 * dayLength + 2 * hour) 1 [reservedAt (20000 * dayLength - 4 * hour)] = [] ∧
      countedToday (5 * hour + hour / 2) (20000 * dayLength + 2 * hour) 1
        [reservedAt (20000 * dayLength - 4 * hour)] =
        [reservedAt (20000 * dayLength - 4 * hour)] := by
  decide

end Octo.Sponsor
