import TreeSelect.Json.Basic
import TreeSelect.OrderedMap
import TreeSelect.Selector.Error

/-!
# The cache of compiled branches

The cache holds the XPath text of selector branches and counts the lookups that found a text and
those that did not.  Replacing all entries starts the count again; adding one does not.
-/

namespace TreeSelect

/-- Compiled branches and the outcome of lookups so far. -/
structure Cache where
  entries : OrderedMap Text Text := .empty
  hits : Nat := 0
  misses : Nat := 0
  deriving DecidableEq, Repr

namespace Cache

/-- A cache without entries. -/
def empty : Cache := {}

/-- A cache of given entries that has not been asked yet. -/
def ofEntries (entries : OrderedMap Text Text) : Cache := { entries }

/-- The text of a branch, without counting. -/
def get? (cache : Cache) (branch : Text) : Option Text := cache.entries.get? branch

/-- The text of a branch, and the cache with this lookup counted. -/
def lookup (cache : Cache) (branch : Text) : Option Text × Cache :=
  match cache.get? branch with
  | some text => (some text, { cache with hits := cache.hits + 1 })
  | none => (none, { cache with misses := cache.misses + 1 })

/-- The cache with one text added or replaced. -/
def insert (cache : Cache) (branch text : Text) : Cache :=
  { cache with entries := cache.entries.insert branch text }

/-- The number of entries. -/
def size (cache : Cache) : Nat := cache.entries.size

/-- Whether there are no entries. -/
def isEmpty (cache : Cache) : Bool := cache.entries.isEmpty

end Cache

/-! ## Storing a cache as JSON -/

/-- What a JSON value is. -/
def Json.kind : Json → JsonKind
  | .null => .null
  | .boolean _ => .boolean
  | .number _ _ => .number
  | .string _ => .string
  | .array _ => .array
  | .object _ => .object

namespace Cache

/-- Whether a key comes before another or is equal to it, character by character. -/
def keyLE : Text → Text → Bool
  | [], _ => true
  | _ :: _, [] => false
  | c :: s, d :: t => c.toNat < d.toNat || (c == d && keyLE s t)

/-- The entries of the members of a stored cache, in the order of their keys. -/
def entriesOfMembers (members : List (Text × Json)) :
    Except SelectorError (OrderedMap Text Text) :=
  (members.mergeSort fun a b => keyLE a.1 b.1).foldlM
    (fun entries member =>
      match member.2 with
      | .string text => .ok (entries.insert member.1 text)
      | other => .error (.invalidArgument (.entryKind member.1 other.kind)))
    .empty

/-- The cache that a JSON value stores: an object whose values are strings. -/
def ofJson : Json → Except SelectorError Cache
  | .object members => (entriesOfMembers members).map ofEntries
  | other => .error (.invalidArgument (.cacheKind other.kind))

/-- The entries as a JSON object. -/
def toJson (cache : Cache) : Json :=
  .object (cache.entries.entries.map fun entry => (entry.1, .string entry.2))

/-- Puts what a JSON value stores in the place of a cache.  A value that stores none changes
nothing. -/
def restore (cache : Cache) (stored : Json) : Except SelectorError Unit × Cache :=
  match ofJson stored with
  | .ok restored => (.ok (), restored)
  | .error error => (.error error, cache)

end Cache
end TreeSelect
