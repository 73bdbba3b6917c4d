import Octo.Store.Models

/-!
# Emailed one-time codes in the store

`crates/store/src/otps.rs` with the migrations 0019, 0021, 0022 and 0032.  Verification is two
statements, with the comparison of the code between them: `claimAttempt` counts an attempt on the
newest code, `consumeOtp` uses it up.

* `OtpTable.Grows`: the codes of a table stay what they are, attempts are only added, and nothing is
  ever used again.
-/

namespace Octo

inductive OtpPurpose
  | signup
  | withdrawal
  | passwordReset
  | emailChange
  | accountExport
  | accountDelete
  deriving DecidableEq

structure Otp where
  id : Uuid
  userId : Uuid
  purpose : OtpPurpose
  codeHash : String
  txHashBound : Option String
  attempts : Nat
  consumedAt : Option Time
  expiresAt : Time
  createdAt : Time
  deriving DecidableEq

/-- The table `email_otps`; a new row has an id that no row has had. -/
structure OtpTable where
  rows : List Otp
  nextId : Uuid
  nodup : (rows.map (·.id)).Nodup
  ids_lt : ∀ r ∈ rows, r.id < nextId

namespace OtpTable

def createOtp (t : OtpTable) (now : Time) (userId : Uuid) (purpose : OtpPurpose) (codeHash : String)
    (txHashBound : Option String) (ttl : Nat) : Uuid × OtpTable :=
  (t.nextId,
    { rows := t.rows ++
        [⟨t.nextId, userId, purpose, codeHash, txHashBound, 0, none, now + ttl, now⟩]
      nextId := t.nextId + 1
      nodup := Rows.nodup_concat t.nodup (fun r hr => Nat.ne_of_lt (t.ids_lt r hr))
      ids_lt := Rows.lt_concat t.ids_lt rfl })

def update (t : OtpTable) (p : Otp → Bool) (f : Otp → Otp) : OtpTable where
  rows := t.rows.map (fun r => if p r then { f r with id := r.id } else r)
  nextId := t.nextId
  nodup := Rows.nodup_update (fun r => by split <;> rfl) t.nodup
  ids_lt := Rows.lt_update (fun r => by split <;> rfl) t.ids_lt

/-- `DELETE FROM email_otps WHERE ..`: the rows that satisfy `p` stay. -/
def keep (t : OtpTable) (p : Otp → Bool) : OtpTable where
  rows := t.rows.filter p
  nextId := t.nextId
  nodup := t.nodup.sublist (List.filter_sublist.map _)
  ids_lt := fun r hr => t.ids_lt r (List.mem_of_mem_filter hr)

/-- The codes of a user for a purpose that no other one of them is newer than. -/
def newest (t : OtpTable) (userId : Uuid) (purpose : OtpPurpose) : List Otp :=
  let mine := t.rows.filter (fun r => r.userId == userId && r.purpose == purpose)
  mine.filter (fun r => mine.all (fun r' => decide (r'.createdAt ≤ r.createdAt)))

def maxAttempts : Nat := 5

def isLive (r : Otp) (now : Time) : Bool :=
  r.consumedAt.isNone && decide (r.attempts < maxAttempts) && decide (now < r.expiresAt)

/-- The first statement of `verify_and_consume_otp`.  Which of equally new codes is taken is left
open (`n`). -/
def claimAttempt (t : OtpTable) (now : Time) (n : Nat) (userId : Uuid) (purpose : OtpPurpose) :
    Option (Uuid × String × Option String) × OtpTable :=
  let newest := t.newest userId purpose
  match newest[n % newest.length]? with
  | none => (none, t)
  | some r =>
    if isLive r now then
      (some (r.id, r.codeHash, r.txHashBound),
        t.update (fun r' => r'.id == r.id) (fun r' => { r' with attempts := r'.attempts + 1 }))
    else (none, t)

/-- The second statement of `verify_and_consume_otp`: whether a row was updated. -/
def consumeOtp (t : OtpTable) (now : Time) (id : Uuid) : Bool × OtpTable :=
  let p := fun r : Otp => r.id == id && r.consumedAt.isNone
  (t.rows.any p, t.update p (fun r => { r with consumedAt := some now }))

def purgeExpiredOtps (t : OtpTable) (now : Time) (retainFor : Nat) : OtpTable :=
  t.keep (fun r => !(decide (r.expiresAt + retainFor < now) ||
    r.consumedAt.any (fun c => decide (c + retainFor < now))))

def deleteOtps (t : OtpTable) (userId : Uuid) : OtpTable := t.keep (fun r => r.userId != userId)

/-! ### What the statements do -/

variable {t t' t'' : OtpTable} {p : Otp → Bool} {f : Otp → Otp} {now : Time} {id : Uuid} {r : Otp}

theorem eq_of_id {r r' : Otp} (h : r ∈ t.rows) (h' : r' ∈ t.rows) (hid : r.id = r'.id) : r = r' :=
  List.inj_on_of_nodup_map t.nodup h h' hid

theorem mem_update {r' : Otp} (h : r' ∈ (t.update p f).rows) :
    ∃ r ∈ t.rows, r'.id = r.id ∧
    (p r = true ∧ r' = { f r with id := r.id } ∨ p r = false ∧ r' = r) := by
  obtain ⟨r, hr, rfl⟩ := List.mem_map.mp h
  refine ⟨r, hr, ?_⟩
  by_cases hp : p r = true
  · rw [if_pos hp]
    exact ⟨rfl, .inl ⟨hp, rfl⟩⟩
  · rw [if_neg hp]
    exact ⟨rfl, .inr ⟨Bool.eq_false_iff.mpr hp, rfl⟩⟩

theorem mem_newest {userId : Uuid} {purpose : OtpPurpose} (h : r ∈ t.newest userId purpose) :
    r ∈ t.rows ∧ r.userId = userId ∧ r.purpose = purpose := by
  have hmem := List.mem_filter.mp (List.mem_of_mem_filter h)
  simpa using hmem

/-- **An attempt is counted** on a live code of the user for the purpose. -/
theorem claimAttempt_cases (t : OtpTable) (now : Time) (n : Nat) (userId : Uuid)
    (purpose : OtpPurpose) :
    t.claimAttempt now n userId purpose = (none, t) ∨
      ∃ r ∈ t.rows, r.userId = userId ∧ r.purpose = purpose ∧ isLive r now = true ∧
        t.claimAttempt now n userId purpose = (some (r.id, r.codeHash, r.txHashBound),
          t.update (fun r' => r'.id == r.id)
            (fun r' => { r' with attempts := r'.attempts + 1 })) := by
  unfold claimAttempt
  cases hr : (t.newest userId purpose)[n % (t.newest userId purpose).length]? with
  | none =>
    left
    simp only [hr]
  | some r =>
    simp only [hr]
    by_cases hlive : isLive r now = true
    · obtain ⟨hmem, huser, hpurpose⟩ := mem_newest (List.mem_of_getElem? hr)
      exact .inr ⟨r, hmem, huser, hpurpose, hlive, if_pos hlive⟩
    · exact .inl (if_neg hlive)

theorem consumeOtp_true (h : (t.consumeOtp now id).1 = true) :
    ∃ r ∈ t.rows, r.id = id ∧ r.consumedAt = none := by
  obtain ⟨r, hr, hp⟩ := List.any_eq_true.mp h
  simp only [Bool.and_eq_true, beq_iff_eq, Option.isNone_iff_eq_none] at hp
  exact ⟨r, hr, hp⟩

theorem consumed_of_consumeOtp (h : r ∈ (t.consumeOtp now id).2.rows)
    (hid : r.id = id) : r.consumedAt.isSome = true := by
  obtain ⟨r0, -, -, ⟨-, rfl⟩ | ⟨hp, rfl⟩⟩ := mem_update h
  · rfl
  · simp only [hid, beq_self_eq_true, Bool.true_and, Option.isNone_eq_false_iff] at hp
    exact hp

structure Grows (t t' : OtpTable) : Prop where
  nextId : t.nextId ≤ t'.nextId
  rows : ∀ r' ∈ t'.rows, r'.id < t.nextId → ∃ r ∈ t.rows, r.id = r'.id ∧ r.attempts ≤ r'.attempts ∧
    (r.consumedAt.isSome = true → r'.consumedAt.isSome = true)

theorem Grows.refl (t : OtpTable) : t.Grows t :=
  ⟨Nat.le_refl _, fun r hr _ => ⟨r, hr, rfl, Nat.le_refl _, fun h => h⟩⟩

theorem Grows.trans (h : t.Grows t') (h' : t'.Grows t'') : t.Grows t'' where
  nextId := Nat.le_trans h.nextId h'.nextId
  rows := by
    intro r'' hr'' hlt
    obtain ⟨r', hr', hid', ha', hc'⟩ := h'.rows r'' hr'' (Nat.lt_of_lt_of_le hlt h.nextId)
    obtain ⟨r, hr, hid, ha, hc⟩ := h.rows r' hr' (hid' ▸ hlt)
    exact ⟨r, hr, hid.trans hid', Nat.le_trans ha ha', fun hs => hc' (hc hs)⟩

theorem grows_createOtp (t : OtpTable) (now : Time) (userId : Uuid) (purpose : OtpPurpose)
    (codeHash : String) (bound : Option String) (ttl : Nat) :
    t.Grows (t.createOtp now userId purpose codeHash bound ttl).2 where
  nextId := Nat.le_succ _
  rows := by
    intro r hr hlt
    rcases Rows.mem_concat.mp hr with hr | rfl
    · exact ⟨r, hr, rfl, Nat.le_refl _, fun h => h⟩
    · exact absurd hlt (Nat.lt_irrefl _)

theorem grows_update (ha : ∀ r, r.attempts ≤ (f r).attempts)
    (hf : ∀ r, r.consumedAt.isSome = true → (f r).consumedAt.isSome = true) :
    t.Grows (t.update p f) where
  nextId := Nat.le_refl _
  rows := by
    intro r' hr' _
    obtain ⟨r, hr, -, ⟨-, rfl⟩ | ⟨-, rfl⟩⟩ := mem_update hr'
    · exact ⟨r, hr, rfl, ha r, hf r⟩
    · exact ⟨_, hr, rfl, Nat.le_refl _, fun h => h⟩

theorem grows_claimAttempt (t : OtpTable) (now : Time) (n : Nat) (userId : Uuid)
    (purpose : OtpPurpose) : t.Grows (t.claimAttempt now n userId purpose).2 := by
  rcases t.claimAttempt_cases now n userId purpose with h | ⟨r, -, -, -, -, h⟩
  · rw [h]
    exact .refl t
  · rw [h]
    exact grows_update (fun _ => Nat.le_succ _) (fun _ h => h)

theorem grows_consumeOtp (t : OtpTable) (now : Time) (id : Uuid) :
    t.Grows (t.consumeOtp now id).2 :=
  grows_update (fun _ => Nat.le_refl _) (fun _ _ => rfl)

theorem grows_keep (t : OtpTable) (p : Otp → Bool) : t.Grows (t.keep p) :=
  ⟨Nat.le_refl _, fun r hr _ => ⟨r, List.mem_of_mem_filter hr, rfl, Nat.le_refl _, fun h => h⟩⟩

end OtpTable

end Octo
