/-!
# Maps that keep the order of insertion

An `OrderedMap` lists its entries in the order in which their keys were first inserted, each key
once.  Inserting a key again replaces its value and leaves it where it is.

The two views of a map are `keys` and `get?`; `keys_insert` and `get?_insert` say what an insertion
does to them.
-/

namespace TreeSelect

namespace OrderedMap

variable {κ ν : Type} [DecidableEq κ]

/-- The entries with the value of `key` replaced, or with a new entry at the end. -/
def insertEntry (key : κ) (value : ν) : List (κ × ν) → List (κ × ν)
  | [] => [(key, value)]
  | entry :: rest =>
    if entry.1 = key then (entry.1, value) :: rest else entry :: insertEntry key value rest

/-- The keys stay in place, and a new key comes last. -/
theorem keys_insertEntry (key : κ) (value : ν) (entries : List (κ × ν)) :
    (insertEntry key value entries).map Prod.fst =
      if key ∈ entries.map Prod.fst then entries.map Prod.fst
      else entries.map Prod.fst ++ [key] := by
  induction entries with
  | nil => simp [insertEntry]
  | cons entry rest ih =>
    rw [insertEntry]
    split
    case isTrue h => simp [h]
    case isFalse h =>
      have hne : ¬ key = entry.1 := fun hc => h hc.symm
      by_cases hm : key ∈ rest.map Prod.fst <;> simp [ih, hne, hm]

/-- A new key comes last with its value. -/
theorem insertEntry_of_not_mem {key : κ} {entries : List (κ × ν)} (value : ν)
    (h : key ∉ entries.map Prod.fst) : insertEntry key value entries = entries ++ [(key, value)] := by
  induction entries with
  | nil => rfl
  | cons entry rest ih =>
    rw [List.map_cons, List.mem_cons, not_or] at h
    rw [insertEntry, if_neg (Ne.symm h.1), ih h.2, List.cons_append]

theorem nodup_keys_insertEntry (key : κ) (value : ν) {entries : List (κ × ν)}
    (h : (entries.map Prod.fst).Nodup) : ((insertEntry key value entries).map Prod.fst).Nodup := by
  rw [keys_insertEntry]
  split
  case isTrue => exact h
  case isFalse hkey =>
    rw [List.nodup_append]
    refine ⟨h, by simp, ?_⟩
    intro other hother new hnew heq
    rw [List.mem_singleton] at hnew
    exact hkey (hnew ▸ heq ▸ hother)

end OrderedMap

/-- The entries of a map, first inserted key first. -/
structure OrderedMap (κ ν : Type) where
  entries : List (κ × ν)
  nodup_keys : (entries.map Prod.fst).Nodup
  deriving DecidableEq, Repr

namespace OrderedMap

variable {κ ν : Type} [DecidableEq κ]

omit [DecidableEq κ] in
/-- The map without entries. -/
def empty : OrderedMap κ ν := ⟨[], List.nodup_nil⟩

omit [DecidableEq κ] in
instance : Inhabited (OrderedMap κ ν) := ⟨empty⟩

/-- Gives `key` the value `value`; a key that is present keeps its place. -/
def insert (map : OrderedMap κ ν) (key : κ) (value : ν) : OrderedMap κ ν :=
  ⟨insertEntry key value map.entries, nodup_keys_insertEntry key value map.nodup_keys⟩

/-- The value of a key, if it has one. -/
def get? (map : OrderedMap κ ν) (key : κ) : Option ν :=
  (map.entries.find? fun entry => entry.1 = key).map Prod.snd

/-- Whether a key has a value. -/
def contains (map : OrderedMap κ ν) (key : κ) : Bool := (map.get? key).isSome

/-- The map that the entries give when they are inserted one after another. -/
def ofList (entries : List (κ × ν)) : OrderedMap κ ν :=
  entries.foldl (fun map entry => map.insert entry.1 entry.2) empty

omit [DecidableEq κ] in
/-- The keys in their order. -/
def keys (map : OrderedMap κ ν) : List κ := map.entries.map Prod.fst

omit [DecidableEq κ] in
/-- The number of keys. -/
def size (map : OrderedMap κ ν) : Nat := map.entries.length

omit [DecidableEq κ] in
/-- Whether there are no entries. -/
def isEmpty (map : OrderedMap κ ν) : Bool := map.entries.isEmpty

/-! ## What an insertion does -/

@[simp] theorem get?_empty (key : κ) : (empty : OrderedMap κ ν).get? key = none := rfl

omit [DecidableEq κ] in
@[simp] theorem keys_empty : (empty : OrderedMap κ ν).keys = [] := rfl

/-- An inserted key has the inserted value, and no other key changes. -/
theorem get?_insert (map : OrderedMap κ ν) (key other : κ) (value : ν) :
    (map.insert key value).get? other = if other = key then some value else map.get? other := by
  simp only [insert, get?]
  induction map.entries with
  | nil => by_cases h : key = other <;> simp [insertEntry, h, eq_comm]
  | cons entry rest ih =>
    rw [insertEntry]
    split
    case isTrue h =>
      by_cases ho : other = key
      · simp [ho, h]
      · have hne : ¬ entry.1 = other := fun hc => ho (hc ▸ h)
        simp [hne, ho]
    case isFalse h =>
      by_cases he : entry.1 = other
      · have hne : ¬ other = key := fun hc => h (he.trans hc)
        simp [he, hne]
      · simpa [List.find?_cons, he] using ih

/-- The keys stay in place, and a new key comes last. -/
theorem keys_insert (map : OrderedMap κ ν) (key : κ) (value : ν) :
    (map.insert key value).keys = if key ∈ map.keys then map.keys else map.keys ++ [key] :=
  keys_insertEntry key value map.entries

/-- Entries with keys that are new and differ from each other are added as they are. -/
theorem entries_foldl_insert (map : OrderedMap κ ν) {entries : List (κ × ν)}
    (h : (map.keys ++ entries.map Prod.fst).Nodup) :
    (entries.foldl (fun map entry => map.insert entry.1 entry.2) map).entries =
      map.entries ++ entries := by
  induction entries generalizing map with
  | nil => simp
  | cons entry rest ih =>
    have hnew : entry.1 ∉ map.keys := by
      intro hmem
      exact (List.nodup_append.1 h).2.2 entry.1 hmem entry.1 List.mem_cons_self rfl
    have hinsert : (map.insert entry.1 entry.2).entries = map.entries ++ [entry] :=
      insertEntry_of_not_mem entry.2 hnew
    have hkeys : (map.insert entry.1 entry.2).keys = map.keys ++ [entry.1] := by
      rw [keys_insert, if_neg hnew]
    rw [List.foldl_cons, ih, hinsert, List.append_assoc, List.singleton_append]
    rw [hkeys, List.append_assoc, List.singleton_append]
    exact h

omit [DecidableEq κ] in
/-- A map is its entries. -/
theorem eq_of_entries {map other : OrderedMap κ ν} (h : map.entries = other.entries) :
    map = other := by
  cases map
  cases other
  cases h
  rfl

/-- Inserted one after another, the entries of a map give the map again. -/
theorem ofList_entries (map : OrderedMap κ ν) : ofList map.entries = map :=
  eq_of_entries (entries_foldl_insert empty map.nodup_keys)

end OrderedMap
end TreeSelect
