import Octo.Account.Deletion

/-!
# Account deletion leaves nothing live

`delete_account` compares the checked wallets with the user's wallets in one transaction, and
archives and retires what is there.  The requests that insert wallets, keys and endpoints check the
user before, in another call, and insert unconditionally: one that was authenticated before the
deletion may insert after it (`live_after_deletion`).
-/

namespace Octo.Account

open Conc Octo.Api AccountDb List

variable {u : Uuid}

/-! ### Calls that insert nothing for the user -/

/-- The call inserts a wallet for the user, or something on a wallet of the user. -/
def insertsFor (u : Uuid) (s : AccountDb) : Op → Bool
  | .createClientWallet userId _ => userId == u
  | .createApiKey k => s.wallets.any (fun r => r.id == k.walletId && r.userId == some u)
  | .upsertApiKey k => s.wallets.any (fun r => r.id == k.walletId && r.userId == some u)
  | .createWebhookEndpoint walletId _ _ =>
    s.wallets.any (fun r => r.id == walletId && r.userId == some u)
  | _ => false

def OfUser (u : Uuid) (s : AccountDb) (id : Uuid) : Prop :=
  ∃ r ∈ s.wallets, r.userId = some u ∧ r.id = id

structure Quiet (u : Uuid) (s s' : AccountDb) : Prop where
  wallets : ∀ r' ∈ s'.wallets, r'.userId = some u → ∃ r ∈ s.wallets, r.userId = some u ∧
    r'.id = r.id ∧ r'.accounts = r.accounts ∧ (r.archivedAt.isSome → r'.archivedAt.isSome)
  apiKeys : ∀ k' ∈ s'.apiKeys, OfUser u s k'.walletId → ∃ k ∈ s.apiKeys, k.walletId = k'.walletId
  webhooks : ∀ h' ∈ s'.webhooks, OfUser u s h'.walletId → h'.active = true →
    ∃ h ∈ s.webhooks, h.walletId = h'.walletId ∧ h.active = true

theorem Quiet.refl (s : AccountDb) : Quiet u s s where
  wallets r hr huser := ⟨r, hr, huser, rfl, rfl, id⟩
  apiKeys k hk _ := ⟨k, hk, rfl⟩
  webhooks h hh _ hact := ⟨h, hh, rfl, hact⟩

variable {s : AccountDb} {o : Op} {w : World} {i : Nat} {out : Outside} {a : Ans o}

theorem not_ofUser {id : Uuid}
    (h : s.wallets.any (fun r => r.id == id && r.userId == some u) = false) : ¬ OfUser u s id := by
  intro ho
  obtain ⟨r, hr, huser, hid⟩ := ho
  have hnot := any_eq_false.mp h r hr
  simp [hid, huser] at hnot

theorem quiet_afterDeletion (s : AccountDb) (user : Auth.User) :
    Quiet u s (s.afterDeletion user) where
  wallets := by
    intro r' hr' huser
    obtain ⟨r, hr, rfl⟩ := mem_map.mp hr'
    by_cases hown : (r.userId == some user.id) = true
    · rw [if_pos hown] at huser ⊢
      refine ⟨r, hr, huser, rfl, rfl, ?_⟩
      cases ha : r.archivedAt <;> simp [archived, ha]
    · rw [if_neg hown] at huser ⊢
      exact ⟨r, hr, huser, rfl, rfl, id⟩
  apiKeys := by
    intro k hk _
    exact ⟨k, (mem_filter.mp hk).1, rfl⟩
  webhooks := by
    intro h' hh' _ hact
    obtain ⟨h, hh, rfl⟩ := mem_map.mp hh'
    by_cases hown : (s.walletIds user.id).contains h.walletId = true
    · rw [if_pos hown] at hact
      cases hact
    · rw [if_neg hown] at hact ⊢
      exact ⟨h, hh, rfl, hact⟩

/-- A call that inserts nothing leaves the user's wallets and what is on them as they are. -/
theorem quiet_write (hins : insertsFor u s o = false) : Quiet u s (write o s) := by
  cases o with
  | deleteAccount userId checked =>
    rcases s.deleteAccount_cases userId checked with ⟨e, he⟩ | ⟨user, -, -, -, he⟩
    · simp only [write, he]
      exact .refl s
    · simp only [write, he]
      exact quiet_afterDeletion s user
  | createClientWallet userId =>
    simp only [write, createClientWallet]
    split
    · exact .refl s
    · split
      · refine { Quiet.refl s with wallets := ?_ }
        intro r hr huser
        rcases Rows.mem_concat.mp hr with hr | rfl
        · exact ⟨r, hr, huser, rfl, rfl, id⟩
        · obtain rfl : userId = u := Option.some.inj huser
          simp [insertsFor] at hins
      · exact .refl s
  | useApiKey =>
    refine { Quiet.refl s with apiKeys := ?_ }
    intro k' hk' _
    obtain ⟨k, hk, rfl⟩ := mem_map.mp hk'
    refine ⟨k, hk, ?_⟩
    split <;> rfl
  | createApiKey =>
    simp only [write, createApiKey]
    split
    · refine { Quiet.refl s with apiKeys := ?_ }
      intro k' hk' hown
      rcases Rows.mem_concat.mp hk' with hk' | rfl
      · exact ⟨k', hk', rfl⟩
      · exact absurd hown (not_ofUser hins)
    · exact .refl s
  | upsertApiKey =>
    simp only [write, upsertApiKey]
    split
    · refine { Quiet.refl s with apiKeys := ?_ }
      intro k' hk' hown
      rcases Rows.mem_concat.mp hk' with hk' | rfl
      · exact ⟨k', (mem_filter.mp hk').1, rfl⟩
      · exact absurd hown (not_ofUser hins)
    · exact .refl s
  | createWebhookEndpoint =>
    simp only [write, createWebhookEndpoint]
    split
    · refine { Quiet.refl s with webhooks := ?_ }
      intro h' hh' hown hact
      rcases Rows.mem_concat.mp hh' with hh' | rfl
      · exact ⟨h', hh', rfl, hact⟩
      · exact absurd hown (not_ofUser hins)
    · exact .refl s
  | _ => exact .refl s

/-! ### The deletion -/

theorem isDeleted_afterDeletion {user : Auth.User} (h : (s.afterDeletion user).isDeleted u = true) :
    user.id = u ∨ s.isDeleted u = true := by
  simp only [isDeleted, any_eq_true, Bool.and_eq_true, beq_iff_eq] at h ⊢
  obtain ⟨_, hrow', hid, hdel⟩ := h
  obtain ⟨row, hrow, rfl⟩ := mem_map.mp hrow'
  by_cases hown : (row.id == user.id) = true
  · left
    rw [if_pos hown] at hid
    rw [← hid]
    exact (beq_iff_eq.mp hown).symm
  · right
    rw [if_neg hown] at hid hdel
    exact ⟨row, hrow, hid, hdel⟩

theorem auth_write (ho : ∀ userId checked, o ≠ .deleteAccount userId checked) :
    (write o s).auth = s.auth := by
  cases o with
  | deleteAccount userId checked => exact absurd rfl (ho userId checked)
  | createClientWallet =>
    simp only [write, createClientWallet]
    split
    · rfl
    · split <;> rfl
  | createApiKey =>
    simp only [write, createApiKey]
    split <;> rfl
  | upsertApiKey =>
    simp only [write, upsertApiKey]
    split <;> rfl
  | createWebhookEndpoint =>
    simp only [write, createWebhookEndpoint]
    split <;> rfl
  | _ => rfl

theorem isDeleted_write (hlive : s.isDeleted u = false) (h : (write o s).isDeleted u = true) :
    ∃ user checked, o = .deleteAccount u checked ∧ user.id = u ∧ (s.walletIds u).Perm checked ∧
      write o s = s.afterDeletion user := by
  by_cases ho : ∃ userId checked, o = .deleteAccount userId checked
  · obtain ⟨userId, checked, rfl⟩ := ho
    rcases s.deleteAccount_cases userId checked with ⟨e, he⟩ | ⟨user, -, huser, hperm, he⟩
    · simp only [write, he] at h
      rw [hlive] at h
      cases h
    · simp only [write, he] at h ⊢
      rcases isDeleted_afterDeletion h with hid | hdel
      · have hu : userId = u := huser.symm.trans hid
        subst hu
        exact ⟨user, checked, rfl, huser, hperm, rfl⟩
      · rw [hlive] at hdel
        cases hdel
  · have hauth := auth_write (s := s) (fun userId checked heq => ho ⟨userId, checked, heq⟩)
    rw [isDeleted, hauth, ← isDeleted, hlive] at h
    cases h

/-- Everything of the user is retired, and was found empty before the deletion. -/
def NothingLive (u : Uuid) (w : World) : Prop :=
  ∃ i later x before, w.trace i = later ++ x :: before ∧
    (∃ checked, x.op = .deleteAccount u checked) ∧
    x.pre.isDeleted u = false ∧ x.post.isDeleted u = true ∧
    ∀ r ∈ w.db.wallets, r.userId = some u →
      r.archivedAt.isSome ∧ (∀ account ∈ r.accounts, CheckedEmpty account before) ∧
        (∀ k ∈ w.db.apiKeys, k.walletId ≠ r.id) ∧ ∀ h ∈ w.db.webhooks, h.walletId = r.id →
        h.active = false

theorem accounts_of_listed (hc : w.Chained (system out) Grows) {q r : WalletRow}
    (hq : Listed u q (w.trace i)) (hr : r ∈ w.db.wallets) (hid : q.id = r.id) :
    r.accounts = q.accounts := by
  obtain ⟨limit, before, page, s, s', hm, hqp⟩ := hq
  obtain ⟨ch, he⟩ : ∃ ch, exec (.listWalletsForUserPage u limit before) ch s =
      some (.ok page, s') := hc.exec_of_mem hm
  have hgrows : Grows s' w.db := hc.below_of_mem hm
  cases ch with
  | store =>
    obtain ⟨rfl, n, hpage⟩ := storeRead_ok he
    rw [← Except.ok.inj hpage] at hqp
    obtain ⟨q', hq', hid', -, hacc⟩ := hgrows q (mem_listWalletsForUserPage hqp).1
    rw [eq_of_id hr hq' (hid.symm.trans hid'.symm)]
    exact hacc
  | _ => cases he

theorem nothingLive_of_commit (hc : w.Chained (system out) Grows) {j : Job}
    (hL : Allowed j (w.trace i) o) (hlive : w.db.isDeleted u = false)
    (hdel : (write o w.db).isDeleted u = true) : NothingLive u (w.record i o a (write o w.db)) := by
  obtain ⟨user, _, rfl, rfl, hperm, hw⟩ := isDeleted_write hlive hdel
  obtain ⟨_, rfl, hchecked⟩ := hL
  refine ⟨i, [], _, w.trace i, World.trace_record_self .., ⟨_, rfl⟩, hlive, hdel, ?_⟩
  rw [hw]
  intro r' hr' huser'
  obtain ⟨r, hr, rfl⟩ := mem_map.mp hr'
  by_cases hown : (r.userId == some user.id) = true
  · rw [if_pos hown]
    have hid : r.id ∈ w.db.walletIds user.id := mem_walletIds.mpr ⟨r, hr, beq_iff_eq.mp hown, rfl⟩
    obtain ⟨q, hq, hqid⟩ := mem_map.mp (hperm.mem_iff.mp hid)
    obtain ⟨hlisted, hempty⟩ := hchecked q hq
    refine ⟨?_, ?_, ?_, ?_⟩
    · cases ha : r.archivedAt <;> simp [archived, ha]
    · intro account hacc
      have hsame : r.accounts = q.accounts := accounts_of_listed hc hlisted hr hqid
      exact hempty account (hsame ▸ hacc)
    · intro k hk hkid
      have hnot := (mem_filter.mp hk).2
      rw [hkid] at hnot
      simp [archived, hid] at hnot
    · intro h' hh' hhid
      obtain ⟨h, -, rfl⟩ := mem_map.mp hh'
      by_cases hon : (w.db.walletIds user.id).contains h.walletId = true
      · rw [if_pos hon]
        rfl
      · rw [if_neg hon] at hhid
        refine absurd ?_ hon
        rw [hhid]
        exact contains_iff_mem.mpr hid
  · rw [if_neg hown] at huser'
    simp [huser'] at hown

theorem NothingLive.record (h : NothingLive u w) (hq : Quiet u w.db s) :
    NothingLive u (w.record i o a s) := by
  obtain ⟨i0, later, x, before, htr, hop, hpre, hpost, hrest⟩ := h
  have htr' : ∃ later', (w.record i o a s).trace i0 = later' ++ x :: before := by
    by_cases hi : i = i0
    · subst hi
      exact ⟨⟨o, a, w.db, s⟩ :: later, by rw [World.trace_record_self, htr]; rfl⟩
    · exact ⟨later, by rw [World.trace_record_of_ne _ _ _ _ _ hi, htr]⟩
  obtain ⟨later', htr'⟩ := htr'
  refine ⟨i0, later', x, before, htr', hop, hpre, hpost, ?_⟩
  intro r' hr' huser'
  obtain ⟨r, hr, huser, hid, hacc, harch⟩ := hq.wallets r' hr' huser'
  obtain ⟨harchived, hempty, hkeys, hhooks⟩ := hrest r hr huser
  have hown : OfUser u w.db r'.id := ⟨r, hr, huser, hid.symm⟩
  refine ⟨harch harchived, fun account ha => hempty account (hacc ▸ ha), ?_, ?_⟩
  · intro k' hk' hkid
    obtain ⟨k, hk, hkk⟩ := hq.apiKeys k' hk' (hkid ▸ hown)
    exact hkeys k hk (hkk.trans (hkid.trans hid))
  · intro h' hh' hhid
    by_contra hact
    obtain ⟨h, hh, hhh, hact'⟩ := hq.webhooks h' hh' (hhid ▸ hown) (by simpa using hact)
    rw [hhooks h hh (hhh.trans (hhid.trans hid))] at hact'
    cases hact'

/-! ### Whole runs -/

def insertsInTime (u : Uuid) (w : World) : Label Job Op Ans → Bool
  | .call _ o _ => !(insertsFor u w.db o && w.db.isDeleted u)
  | _ => true

def NotDeleted (u : Uuid) (s : AccountDb) : Prop := s.isDeleted u = false

/-- **Account deletion leaves nothing live**, in every run in which nothing is inserted for the user
after the deletion: once the user is deleted, every wallet of the user is archived, each of its
accounts was found empty by the request that deleted the account, before it did so, and there is no
API key and no active webhook endpoint on the wallet. -/
theorem nothing_live_reach {out : Outside} {c : Conf}
    (h : Reach (system out) (fun w l => insertsInTime u w l = true) (NotDeleted u) c)
    (hdel : c.world.db.isDeleted u = true) : NothingLive u c.world := by
  refine (discipline out).invariant (I := fun w => w.db.isDeleted u = true → NothingLive u w)
    ?_ ?_ ?_ ?_ h hdel
  · intro s hs hd
    rw [hs] at hd
    cases hd
  · exact fun w j hI _ _ hd => hI hd
  · intro w i j o ch a s hI hc _ hL he hok hd
    cases hlive : w.db.isDeleted u with
    | false =>
      rcases exec_write he with rfl | rfl
      · rw [World.record_db, hlive] at hd
        cases hd
      · exact nothingLive_of_commit hc hL hlive hd
    | true =>
      have hins : insertsFor u w.db o = false := by simpa [insertsInTime, hlive] using hok
      rcases exec_write he with rfl | rfl
      · exact (hI hlive).record (.refl _)
      · exact (hI hlive).record (quiet_write hins)
  · intro w dt s hI he _ hd
    cases he
    exact hI hd

/-! ### Examples -/

def exampleOut : Outside := ⟨"testnet", fun code => "sha256 " ++ code⟩

def exampleUser : Auth.User := ⟨7, "owner@example.com", "hash", 0, some 0, none⟩

def exampleWallet : WalletRow :=
  ⟨1, some 7, "testnet", "GOWNER", none, some "Shop", none, none, 0, none⟩

def exampleDb : AccountDb where
  auth := ⟨[exampleUser], [], [], [], 1, 0, by decide, by decide, fun _ hq => nomatch hq⟩
  wallets := [exampleWallet]
  apiKeys := [⟨1, "octo_sk_test_ab12", "old", ["read"], none, none⟩]
  webhooks := []
  nextId := 2
  wallets_nodup := by decide
  wallets_lt := by decide

def served : Choice := .store (.served 0)

def deleteMoves (i : Nat) : List (Move Job Choice Nat) :=
  [.call i served, .call i (.balances (.ok ["0.0000000"])), .call i (.code (.ok ())),
    .call i served]

def newWallet : NewClientWallet := ⟨"testnet", "GNEW", none, none, none⟩

def newKey : ApiKey := ⟨1, "octo_sk_test_cd34", "new", ["read", "write", "sponsor"], none, none⟩

def inFlight : List (Move Job Choice Nat) :=
  [.start (.deleteAccount 7 (some "042817") 1), .start (.createWallet 7 newWallet),
    .start (.generateKey 7 true newKey),
    .start (.createWebhook (.login 7) 1 "https://shop.example/hook" "secret"), .call 2 served,
    .call 3 served, .call 3 served]

/-- A key is generated before the deletion, which revokes it. -/
theorem key_gone_after_deletion : ∃ c : Conf,
    Reach (system exampleOut) (fun w l => insertsInTime 7 w l = true) (NotDeleted 7) c ∧
      c.world.db.isDeleted 7 = true ∧ NothingLive 7 c.world := by
  obtain ⟨c, hc, hdel⟩ := exists_reach_of_runMovesIf (S := system exampleOut) (insertsInTime 7)
    (show NotDeleted 7 exampleDb from rfl) (inFlight ++ [.call 2 served] ++ deleteMoves 0)
    (p := fun c => c.world.db.isDeleted 7 = true) (by decide +kernel)
  exact ⟨c, hc, hdel, nothing_live_reach hc hdel⟩

/-- The three insertions come after the deletion: the deleted user has a wallet that is not archived
and was never checked, and an archived wallet with a working API key and an active endpoint. -/
theorem live_after_deletion : ∃ c : Conf, Reachable (system exampleOut) (NotDeleted 7) c ∧
    c.world.db.isDeleted 7 = true ∧ ¬ NothingLive 7 c.world ∧
    (∃ r ∈ c.world.db.wallets, r.userId = some 7 ∧ r.archivedAt = none) ∧
    ∃ r ∈ c.world.db.wallets, r.userId = some 7 ∧ r.archivedAt.isSome ∧
      (∃ k ∈ c.world.db.apiKeys, k.walletId = r.id) ∧
      ∃ h ∈ c.world.db.webhooks, h.walletId = r.id ∧ h.active = true := by
  obtain ⟨c, hc, hdel, ⟨r, hr, huser, harch⟩, hother⟩ := exists_reachable_of_runMoves
    (S := system exampleOut) (show NotDeleted 7 exampleDb from rfl)
    (inFlight ++ deleteMoves 0 ++ [.call 1 served, .call 2 served, .call 3 served]) (p := fun c =>
      c.world.db.isDeleted 7 = true ∧
      (∃ r ∈ c.world.db.wallets, r.userId = some 7 ∧ r.archivedAt = none) ∧
      ∃ r ∈ c.world.db.wallets, r.userId = some 7 ∧ r.archivedAt.isSome ∧
        (∃ k ∈ c.world.db.apiKeys, k.walletId = r.id) ∧
        ∃ h ∈ c.world.db.webhooks, h.walletId = r.id ∧ h.active = true) (by decide +kernel)
  refine ⟨c, hc, hdel, ?_, ⟨r, hr, huser, harch⟩, hother⟩
  intro hnothing
  obtain ⟨i, _, x, _, -, -, -, -, hrest⟩ := hnothing
  have harchived := (hrest r hr huser).1
  rw [harch] at harchived
  cases harchived

end Octo.Account
