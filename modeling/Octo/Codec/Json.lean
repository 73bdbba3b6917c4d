import Mathlib.Data.List.Basic

/-!
# JSON documents and the structures read from them

`Json` is a parsed document.  The readers follow `serde` with a derived `Deserialize`: a structure
is read from an object (unknown keys are skipped, a repeated known key is an error) or, position by
position, from an array; a field marked `default` may be missing; an `Option` field may also be
`null`.
-/

namespace Codec

/-- A JSON document.  A number that is not written as an integer is kept as text. -/
inductive Json
  | null
  | bool (b : Bool)
  | int (n : Int)
  | float (text : String)
  | str (s : String)
  | arr (items : List Json)
  | obj (fields : List (String × Json))

namespace Json

/-- The fields of a structure with the given field names, in either of the two shapes. -/
def structFields (names : List String) : Json → Option (List (String × Json))
  | .obj fields =>
    let known := fields.filter (fun f => names.contains f.1)
    if (known.map (·.1)).Nodup then some known else none
  | .arr items => if items.length ≤ names.length then some (names.zip items) else none
  | _ => none

def fieldOr {α : Type} (fields : List (String × Json)) (name : String) (default : α)
    (read : Json → Option α) : Option α :=
  match fields.lookup name with
  | none => some default
  | some j => read j

def field {α : Type} (fields : List (String × Json)) (name : String) (read : Json → Option α) :
    Option α :=
  (fields.lookup name).bind read

def asBool : Json → Option Bool
  | .bool b => some b
  | _ => none

def asString : Json → Option String
  | .str s => some s
  | _ => none

def asI64 : Json → Option Int
  | .int n => if -9223372036854775808 ≤ n ∧ n ≤ 9223372036854775807 then some n else none
  | _ => none

def asOption {α : Type} (read : Json → Option α) : Json → Option (Option α)
  | .null => some none
  | j => (read j).map some

def asVec {α : Type} (read : Json → Option α) : Json → Option (List α)
  | .arr items => items.mapM read
  | _ => none

/-- The value under a path of object keys, as a reader of the document sees it. -/
def at? : List String → Json → Option Json
  | [], j => some j
  | k :: ks, .obj fields => (fields.lookup k).bind (at? ks)
  | _, _ => none

theorem structFields_obj (names : List String) {fields : List (String × Json)}
    (h : (fields.map (·.1)).Nodup) :
    ∃ known, structFields names (.obj fields) = some known ∧
    ∀ n ∈ names, known.lookup n = fields.lookup n := by
  have hnd : ((fields.filter (fun f => names.contains f.1)).map (·.1)).Nodup :=
    h.sublist (List.filter_sublist.map _)
  refine ⟨fields.filter (fun f => names.contains f.1), ?_, ?_⟩
  · simp only [structFields]
    rw [if_pos hnd]
  · intro n hn
    clear h hnd
    induction fields with
    | nil => rfl
    | cons f fields ih =>
      obtain ⟨k, v⟩ := f
      by_cases hk : names.contains k = true
      · rw [List.filter_cons_of_pos (by exact hk), List.lookup_cons, List.lookup_cons, ih]
      · -- a skipped key is not the one that is looked up
        have hne : (n == k) = false := by
          rw [beq_eq_false_iff_ne]
          rintro rfl
          exact hk (List.contains_iff_mem.mpr hn)
        rw [List.filter_cons_of_neg (by exact hk), List.lookup_cons, hne, ih]

end Json

end Codec
