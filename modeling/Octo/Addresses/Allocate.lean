import Octo.Conc.Trace
import Octo.Store.Allocation

/-!
# Allocating deposit addresses

`allocate_addresses` and `allocate_address` of `crates/store/src/addresses.rs`, in any number and at
the same time on one database.  A caller may die between two calls, and the database may lose a
session, with what it has not committed.

`Status` is where a call is, read off the calls it has made; `Allowed` says which call it may make
next.
-/

namespace Octo.Addresses

open Conc List

inductive Op
  | begin
  | bumpCounter (tx : Nat) (walletId : Uuid) (count : Int)
  | insertAddress (tx : Nat) (walletId : Uuid) (muxedId : Int) (muxedAddress : String)
      (item : NewAddress)
  | commit (tx : Nat)
  | rollback (tx : Nat)

abbrev Ans : Op → Type
  | .begin => Except StoreError Nat
  | .bumpCounter .. => Except StoreError (Option Int)
  | .insertAddress .. => Except StoreError Address
  | .commit _ => Except StoreError Unit
  | .rollback _ => Except StoreError Unit

abbrev ask (o : Op) : Prog Op Ans (Ans o) := .perform o

def exec : (o : Op) → Choice → AllocDb → Option (Ans o × AllocDb)
  | .begin => storeWait (fun s => some (.ok s.begin.1, s.begin.2))
  | .bumpCounter tx walletId count => storeWait (fun s => s.bumpCounter tx walletId count)
  | .insertAddress tx walletId muxedId muxedAddress item =>
    storeWait (fun s => s.insertAddress tx walletId muxedId muxedAddress item)
  | .commit tx => storeWait (fun s => some (s.commit tx))
  | .rollback tx => storeWait (fun s => some (.ok (), s.endSession tx))

abbrev AllocM (α : Type) := ExceptT StoreError (Prog Op Ans) α

/-- An error inside the transaction: it is rolled back when it is dropped. -/
def failWith {α : Type} (tx : Nat) (e : StoreError) : Prog Op Ans (Except StoreError α) := do
  let _ ← ask (.rollback tx)
  return .error e

/-- An error drops the transaction, which rolls it back. -/
def orRollback {α : Type} (tx : Nat) (p : Prog Op Ans (Except StoreError α)) : AllocM α :=
  ExceptT.mk (p >>= fun r =>
    match r with
    | .ok v => .ret (.ok v)
    | .error e => failWith tx e)

/-- The loop of `allocate_addresses`, over `(first_id..).zip(new)`. -/
def insertAll (tx : Nat) (walletId : Uuid) (muxedAddressFor : Int → Option String) :
    Int → List NewAddress → AllocM (List Address)
  | _, [] => return []
  | muxedId, item :: new =>
    match muxedAddressFor muxedId with
    | none => ExceptT.mk (failWith tx .notFound)
    | some muxedAddress => do
      let row ← orRollback tx (ask (.insertAddress tx walletId muxedId muxedAddress item))
      let rows ← insertAll tx walletId muxedAddressFor (muxedId + 1) new
      return row :: rows

def allocateAddresses (walletId : Uuid) (muxedAddressFor : Int → Option String)
    (new : List NewAddress) : AllocM (List Address) := do
  if new.isEmpty then return []
  else if i64Max < new.length then throw .notFound
  else
    let tx ← Prog.tryCall .begin id
    let first ← orRollback tx (ask (.bumpCounter tx walletId new.length))
    match first with
    | none => ExceptT.mk (failWith tx .notFound)
    | some first =>
      let addresses ← insertAll tx walletId muxedAddressFor first new
      orRollback tx (ask (.commit tx))
      return addresses

def allocateAddress (walletId : Uuid) (muxedAddressFor : Int → Option String) (item : NewAddress) :
    AllocM Address := do
  let rows ← allocateAddresses walletId muxedAddressFor [item]
  match rows.getLast? with
  | some row => return row
  | none => throw .notFound

/-! ### The system -/

inductive Job
  | single (walletId : Uuid) (muxedAddressFor : Int → Option String) (item : NewAddress)
  | batch (walletId : Uuid) (muxedAddressFor : Int → Option String) (new : List NewAddress)

def Job.walletId : Job → Uuid
  | .single walletId .. => walletId
  | .batch walletId .. => walletId

def Job.new : Job → List NewAddress
  | .single _ _ item => [item]
  | .batch _ _ new => new

def code : Job → Prog Op Ans Unit
  | .single walletId derive item =>
    (allocateAddress walletId derive item).run.bind (fun _ => .ret ())
  | .batch walletId derive new =>
    (allocateAddresses walletId derive new).run.bind (fun _ => .ret ())

inductive Env
  | tick (dt : Nat)
  | abort (tx : Nat)

def env : Env → AllocDb → Option AllocDb
  | .tick dt, s => some { s with db := { s.db with now := s.db.now + dt } }
  | .abort tx, s => some (s.endSession tx)

def system : Sys Job Op Ans Choice Env AllocDb where
  code := code
  canStart _ _ := true
  exec := exec
  env := env

abbrev Act := Conc.Act Op Ans AllocDb
abbrev World := Conc.World Job Op Ans AllocDb

/-! ### What is allowed -/

inductive Status
  | idle
  | opened (tx : Nat)
  /-- The counter was raised from `first`, and `rows` were inserted. -/
  | bumped (tx : Nat) (first : Int) (rows : List Address)
  | ended

def Status.tx? : Status → Option Nat
  | .opened tx => some tx
  | .bumped tx _ _ => some tx
  | _ => none

/-- How a call moves the status. -/
def Status.next : Status → Act → Status
  | .idle, ⟨.begin, .ok tx, _, _⟩ => .opened tx
  | .opened tx, ⟨.bumpCounter .., .ok (some first), _, _⟩ => .bumped tx first []
  | .bumped tx first rows, ⟨.insertAddress .., .ok row, _, _⟩ => .bumped tx first (rows ++ [row])
  | _, _ => .ended

/-- Where a request is, by its calls. -/
def status (tr : List Act) : Status := tr.foldr (fun x st => st.next x) .idle

@[simp] theorem status_cons (x : Act) (tr : List Act) : status (x :: tr) = (status tr).next x := rfl

def Allowed (j : Job) (tr : List Act) : Op → Prop
  | .begin => status tr = .idle
  | .bumpCounter tx walletId count => status tr = .opened tx ∧ walletId = j.walletId ∧
      count = j.new.length
  | .insertAddress tx walletId muxedId _ _ => ∃ first rows, status tr = .bumped tx first rows ∧
      walletId = j.walletId ∧ muxedId = first + rows.length
  | .commit tx => ∃ first rows, status tr = .bumped tx first rows ∧ rows.length = j.new.length
  | .rollback _ => True

/-! ### The code keeps to it -/

section

variable {j : Job} {tx : Nat} {tr : List Act} {α : Type}

abbrev Keeps (j : Job) (p : Prog Op Ans α) (Q : α → List Act → Prop) (tr : List Act) : Prop :=
  Calls system (fun _ _ => True) (Allowed j) p Q tr

theorem keeps_failWith {e : StoreError} {Q : Except StoreError α → List Act → Prop}
    (hQ : ∀ e tr', Q (.error e) tr') : Keeps j (failWith tx e) Q tr :=
  ⟨trivial, fun _ _ _ _ _ _ => hQ e _⟩

theorem keeps_orRollback {β : Type} {p : Prog Op Ans (Except StoreError α)} {k : α → AllocM β}
    {Q : Except StoreError β → List Act → Prop} (hQ : ∀ e tr', Q (.error e) tr')
    (hp : Keeps j p (fun r tr' => ∀ v, r = .ok v → Keeps j (k v).run Q tr') tr) :
    Keeps j (orRollback tx p >>= k).run Q tr := by
  refine calls_bindE (calls_bind (hp.imp ?_))
  intro r tr' hr
  cases r with
  | ok v => exact hr v rfl
  | error => exact keeps_failWith hQ

/-- **The loop inserts one row after the other**, under consecutive ids. -/
theorem keeps_insertAll (derive : Int → Option String) {first : Int} (new : List NewAddress)
    {rows : List Address} (hst : status tr = .bumped tx first rows) :
    Keeps j (insertAll tx j.walletId derive (first + rows.length) new).run
      (fun r tr' => ∀ v, r = .ok v →
      ∃ rows', status tr' = .bumped tx first rows' ∧ rows'.length = rows.length + new.length)
        tr := by
  induction new generalizing tr rows with
  | nil => exact fun v _ => ⟨rows, hst, rfl⟩
  | cons item new ih =>
    unfold insertAll
    cases derive (first + rows.length) with
    | none => exact keeps_failWith (fun e tr' v hv => nomatch hv)
    | some muxedAddress =>
      refine keeps_orRollback (fun e tr' v hv => (nomatch hv)) ⟨⟨first, rows, hst, rfl, rfl⟩, ?_⟩
      intro s ch a s' _ _ row ha
      subst ha
      have hst' : status (⟨.insertAddress tx j.walletId (first + rows.length) muxedAddress item,
          .ok row, s, s'⟩ :: tr) = .bumped tx first (rows ++ [row]) := by
        rw [status_cons, hst]
        rfl
      have hnext := ih hst'
      rw [length_append, length_singleton, Int.natCast_add, ← Int.add_assoc] at hnext
      refine calls_bindE (hnext.imp ?_)
      intro r tr' hr
      cases r with
      | error => exact fun v hv => nomatch hv
      | ok v =>
        intro w _
        obtain ⟨rows', hrows', hlen⟩ := hr v rfl
        exact ⟨rows', hrows', by rw [hlen, length_cons]; omega⟩

theorem keeps_allocateAddresses (j : Job) (derive : Int → Option String) :
    Keeps j (allocateAddresses j.walletId derive j.new).run (fun _ _ => True) [] := by
  unfold allocateAddresses
  split
  · trivial
  · split
    · trivial
    · refine calls_tryCall rfl ?_
      intro s ch a s' _ _
      cases a with
      | error => trivial
      | ok tx =>
        refine keeps_orRollback (fun e tr' => trivial) ⟨⟨rfl, rfl, rfl⟩, ?_⟩
        intro s1 ch1 a1 s1' _ _ first ha
        subst ha
        cases first with
        | none => exact keeps_failWith (fun e tr' => trivial)
        | some first =>
          have hst : status [⟨.bumpCounter tx j.walletId j.new.length, .ok (some first), s1, s1'⟩,
              ⟨.begin, .ok tx, s, s'⟩] = .bumped tx first [] := rfl
          have hloop := keeps_insertAll (j := j) derive j.new hst
          rw [length_nil, Int.natCast_zero, Int.add_zero] at hloop
          refine calls_bindE (hloop.imp ?_)
          intro r tr' hr
          cases r with
          | error => trivial
          | ok addresses =>
            obtain ⟨rows', hst, hlen⟩ := hr addresses rfl
            refine keeps_orRollback (fun e tr' => trivial) ⟨⟨first, rows', hst, ?_⟩,
              fun s ch a s' _ _ v _ => trivial⟩
            rw [hlen, Nat.zero_add]

/-- The code keeps to it: a batch inserts its rows under the ids that follow the one its `UPDATE`
returned, and commits only when all of them are in. -/
theorem discipline : Discipline system (fun _ _ => True) Allowed where
  refl _ := trivial
  trans _ _ := trivial
  exec _ := trivial
  env _ := trivial
  code j := by
    cases j with
    | batch walletId derive new =>
      have h := keeps_allocateAddresses (.batch walletId derive new) derive
      exact calls_bind (h.imp (fun _ _ _ => trivial))
    | single walletId derive item =>
      have h := keeps_allocateAddresses (.single walletId derive item) derive
      refine calls_bind (calls_bindE (h.imp ?_))
      intro r tr _
      cases r with
      | error => trivial
      | ok rows =>
        dsimp only
        cases rows.getLast? with
        | none => trivial
        | some => trivial

end

end Octo.Addresses
