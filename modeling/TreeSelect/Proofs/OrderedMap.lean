import Mathlib.Data.Finset.Card
import Mathlib.Data.List.Induction
import Mathlib.Data.List.Nodup
import TreeSelect.OrderedMap

/-!
# The entries of a map

What is looked up in a map stands among its entries and the other way round, as no key stands there
twice (`get?_eq_some_iff`).  So the law of insertion says which entries there are after one insertion
(`mem_entries_insert`) and after several: of a list of entries the map keeps, for each key, the last
one (`mem_entries_ofList`), in the place of the first one (`keys_ofList`).
-/

namespace TreeSelect.OrderedMap

variable {κ ν : Type} [DecidableEq κ] {map : OrderedMap κ ν} {key : κ} {value : ν}

/-! ## Entries and look-up -/

/-- The value of a key stands in the one entry of that key. -/
theorem get?_eq_some_iff : map.get? key = some value ↔ (key, value) ∈ map.entries := by
  constructor
  · intro h
    obtain ⟨entry, hfind, rfl⟩ := Option.map_eq_some_iff.1 h
    have hkey : entry.1 = key := by simpa using List.find?_some hfind
    rw [← hkey]
    exact List.mem_of_find?_eq_some hfind
  · intro h
    rw [get?]
    cases hfind : map.entries.find? fun entry => entry.1 = key with
    | none =>
      have hne := List.find?_eq_none.1 hfind _ h
      simp at hne
    | some entry =>
      have hkey : entry.1 = key := by simpa using List.find?_some hfind
      rw [List.inj_on_of_nodup_map map.nodup_keys (List.mem_of_find?_eq_some hfind) h hkey]
      rfl

theorem get?_eq_none_iff : map.get? key = none ↔ key ∉ map.keys := by
  rw [get?, Option.map_eq_none_iff, List.find?_eq_none, keys, List.mem_map]
  constructor
  · rintro h ⟨entry, hentry, hkey⟩
    exact absurd hkey (by simpa using h entry hentry)
  · intro h entry hentry
    simpa using fun hkey => h ⟨entry, hentry, hkey⟩

/-- Maps in which each key has the same value have the same entries, apart from their order. -/
theorem perm_entries_iff {other : OrderedMap κ ν} :
    map.entries.Perm other.entries ↔ ∀ key, map.get? key = other.get? key := by
  constructor
  · intro h key
    apply Option.ext
    intro value
    rw [get?_eq_some_iff, get?_eq_some_iff, h.mem_iff]
  · intro h
    rw [List.perm_ext_iff_of_nodup (List.Nodup.of_map _ map.nodup_keys)
      (List.Nodup.of_map _ other.nodup_keys)]
    intro entry
    rw [← get?_eq_some_iff, ← get?_eq_some_iff, h]

/-! ## Insertion -/

/-- A new key is one entry more. -/
theorem size_insert (h : map.get? key = none) : (map.insert key value).size = map.size + 1 := by
  have hentries : (map.insert key value).entries = map.entries ++ [(key, value)] :=
    insertEntry_of_not_mem value (get?_eq_none_iff.1 h)
  rw [size, hentries, List.length_append, List.length_singleton, size]

/-- After an insertion there is the inserted entry, and no other one of its key. -/
theorem mem_entries_insert {entry : κ × ν} :
    entry ∈ (map.insert key value).entries ↔
      entry = (key, value) ∨ entry ∈ map.entries ∧ entry.1 ≠ key := by
  obtain ⟨other, content⟩ := entry
  rw [← get?_eq_some_iff, get?_insert, ← get?_eq_some_iff]
  by_cases hkey : other = key
  · simp [hkey, eq_comm]
  · simp [hkey]

/-- An entry stays until another one of its key is inserted. -/
theorem mem_entries_foldl_insert {list : List (κ × ν)} {entry : κ × ν} :
    entry ∈ (list.foldl (fun map entry => map.insert entry.1 entry.2) map).entries ↔
      (∃ before after, list = before ++ entry :: after ∧ entry.1 ∉ after.map Prod.fst) ∨
        entry ∈ map.entries ∧ entry.1 ∉ list.map Prod.fst := by
  induction list generalizing map with
  | nil => simp
  | cons first rest ih =>
    rw [List.foldl_cons, ih, mem_entries_insert, List.map_cons, List.mem_cons, not_or]
    constructor
    · rintro (⟨before, after, rfl, hafter⟩ | ⟨rfl | ⟨hentry, hfirst⟩, hrest⟩)
      · exact .inl ⟨first :: before, after, rfl, hafter⟩
      · exact .inl ⟨[], rest, rfl, hrest⟩
      · exact .inr ⟨hentry, hfirst, hrest⟩
    · rintro (⟨before, after, hlist, hafter⟩ | ⟨hentry, hfirst, hrest⟩)
      · rcases List.cons_eq_append_iff.1 hlist with ⟨rfl, hcons⟩ | ⟨before, rfl, hrest⟩
        · obtain ⟨rfl, rfl⟩ := List.cons.inj hcons
          exact .inr ⟨.inl rfl, hafter⟩
        · exact .inl ⟨before, after, hrest, hafter⟩
      · exact .inr ⟨.inr ⟨hentry, hfirst⟩, hrest⟩

/-- The map of a list has its keys where they occur for the first time. -/
theorem keys_ofList [BEq κ] [LawfulBEq κ] (list : List (κ × ν)) :
    (ofList list).keys = (list.map Prod.fst).eraseDups := by
  induction list using List.reverseRecOn with
  | nil => rfl
  | append_singleton list entry ih =>
    rw [ofList, List.foldl_append, List.foldl_cons, List.foldl_nil, keys_insert, ← ofList, ih,
      List.map_append, List.map_singleton, List.eraseDups_append]
    by_cases h : entry.1 ∈ list.map Prod.fst
    · rw [if_pos (List.mem_eraseDups.2 h)]
      simp [List.removeAll, h]
    · rw [if_neg (mt List.mem_eraseDups.1 h)]
      simp [List.removeAll, h, List.eraseDups_cons]

/-- The map of a list has, for each key, the last entry of that key. -/
theorem mem_entries_ofList {list : List (κ × ν)} {entry : κ × ν} :
    entry ∈ (ofList list).entries ↔
      ∃ before after, list = before ++ entry :: after ∧ entry.1 ∉ after.map Prod.fst := by
  rw [ofList, mem_entries_foldl_insert]
  exact or_iff_left fun h => absurd h.1 List.not_mem_nil

/-! ## Maps as what was inserted -/

/-- The value in the last entry of a key. -/
def lastValue? (list : List (κ × ν)) (key : κ) : Option ν :=
  (list.reverse.find? fun entry => entry.1 = key).map Prod.snd

/-- The last insertion of a key gives its value. -/
theorem get?_ofList (list : List (κ × ν)) (key : κ) :
    (ofList list).get? key = lastValue? list key := by
  induction list using List.reverseRecOn with
  | nil => rfl
  | append_singleton list entry ih =>
    rw [ofList, List.foldl_append, List.foldl_cons, List.foldl_nil, get?_insert, ← ofList, ih,
      lastValue?, lastValue?, List.reverse_concat, List.find?_cons]
    by_cases h : entry.1 = key
    · simp [h]
    · simp [h, Ne.symm h]

/-- The keys of a list stand in the order of their first places in it. -/
theorem pairwise_keys_ofList (list : List (κ × ν)) :
    (ofList list).keys.Pairwise fun key other =>
      (list.map Prod.fst).idxOf key < (list.map Prod.fst).idxOf other := by
  induction list using List.reverseRecOn with
  | nil => exact List.Pairwise.nil
  | append_singleton list entry ih =>
    have hmem : ∀ {key}, key ∈ (ofList list).keys → key ∈ list.map Prod.fst := by
      intro key hkey
      rwa [keys_ofList, List.mem_eraseDups] at hkey
    have hbefore : ∀ {key}, key ∈ (ofList list).keys →
        (list.map Prod.fst ++ [entry.1]).idxOf key = (list.map Prod.fst).idxOf key :=
      fun hkey => List.idxOf_append_of_mem (hmem hkey)
    have hold : (ofList list).keys.Pairwise fun key other =>
        (list.map Prod.fst ++ [entry.1]).idxOf key <
          (list.map Prod.fst ++ [entry.1]).idxOf other := by
      refine ih.imp_of_mem fun hkey hother hlt => ?_
      rwa [hbefore hkey, hbefore hother]
    rw [ofList, List.foldl_append, List.foldl_cons, List.foldl_nil, keys_insert, ← ofList,
      List.map_append, List.map_singleton]
    split
    case isTrue => exact hold
    case isFalse hnew =>
      rw [keys_ofList, List.mem_eraseDups] at hnew
      refine List.pairwise_append.2 ⟨hold, List.pairwise_singleton _ _, ?_⟩
      intro key hkey other hother
      rw [List.mem_singleton.1 hother, hbefore hkey, List.idxOf_append_of_notMem hnew]
      exact Nat.lt_of_lt_of_le (List.idxOf_lt_length_of_mem (hmem hkey)) (Nat.le_add_right _ _)

/-- The map is what the insertions of a list, one after another, ask for. -/
structure Collects (map : OrderedMap κ ν) (insertions : List (κ × ν)) : Prop where
  /-- Each inserted key is in the map, and no other one. -/
  mem_keys_iff : ∀ key, key ∈ map.keys ↔ key ∈ insertions.map Prod.fst
  /-- No key is there twice. -/
  nodup : map.keys.Nodup
  /-- The keys are in the order of their first insertions. -/
  inOrder : map.keys.Pairwise fun key other =>
    (insertions.map Prod.fst).idxOf key < (insertions.map Prod.fst).idxOf other
  /-- The entry of a key has the value of its last insertion. -/
  mem_entries_iff : ∀ entry,
    entry ∈ map.entries ↔ lastValue? insertions entry.1 = some entry.2
  /-- That value is looked up, and nothing for a key that was not inserted. -/
  get?_eq : ∀ key, map.get? key = lastValue? insertions key
  get?_eq_none : ∀ key, map.get? key = none ↔ key ∉ insertions.map Prod.fst
  /-- There are as many entries as keys that were inserted. -/
  size_eq : map.size = (insertions.map Prod.fst).toFinset.card

theorem collects_ofList (insertions : List (κ × ν)) : (ofList insertions).Collects insertions := by
  have hmem : ∀ key, key ∈ (ofList insertions).keys ↔ key ∈ insertions.map Prod.fst := by
    intro key
    rw [keys_ofList, List.mem_eraseDups]
  constructor
  case mem_keys_iff => exact hmem
  case nodup => exact (ofList insertions).nodup_keys
  case inOrder => exact pairwise_keys_ofList insertions
  case mem_entries_iff =>
    intro entry
    rw [← get?_ofList, get?_eq_some_iff]
  case get?_eq => exact get?_ofList insertions
  case get?_eq_none =>
    intro key
    rw [get?_eq_none_iff, hmem]
  case size_eq =>
    have hfinset : (ofList insertions).keys.toFinset = (insertions.map Prod.fst).toFinset := by
      ext key
      rw [List.mem_toFinset, List.mem_toFinset, hmem]
    have hcard : (ofList insertions).keys.toFinset.card = (ofList insertions).keys.length :=
      List.toFinset_card_of_nodup (ofList insertions).nodup_keys
    rw [← hfinset, hcard, keys, List.length_map, size]

end TreeSelect.OrderedMap
