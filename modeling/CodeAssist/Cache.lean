import CodeAssist.Json.Basic

/-!
A bounded cache whose entries grow stale.

Every entry has its own time to live and is looked at again on each look-up, so a stale entry is
never given out. Entries stand in the order in which they were stored; one that is stored past
the capacity drives out the oldest.
-/

namespace CodeAssist

/-- A stored value. Times are in milliseconds. -/
structure Cache.Entry (ν : Type) where
  value : ν
  storedAt : Nat
  ttl : Nat
  deriving Repr

/-- `CompletionCache`: a cache from `κ` to `ν`. -/
structure Cache (κ ν : Type) where
  /-- How many entries it may hold; at least one. -/
  capacity : Nat
  /-- Oldest first. -/
  entries : List (κ × Cache.Entry ν)
  hits : Nat
  misses : Nat
  deriving Repr

structure CacheStats where
  entries : Nat
  capacity : Nat
  hits : Nat
  misses : Nat
  deriving DecidableEq, Repr

def CacheStats.toJson (s : CacheStats) : Json :=
  .object [("entries", .ofNat s.entries), ("capacity", .ofNat s.capacity),
    ("hits", .ofNat s.hits), ("misses", .ofNat s.misses)]

namespace Cache

/-- Whether an entry may still be given out: its time to live has not passed. -/
def Entry.isFresh (now : Nat) (e : Entry ν) : Bool :=
  now - e.storedAt < e.ttl

def empty (capacity : Nat) : Cache κ ν :=
  ⟨max capacity 1, [], 0, 0⟩

variable [BEq κ]

def without (key : κ) (entries : List (κ × Entry ν)) : List (κ × Entry ν) :=
  entries.filter fun (k, _) => !(k == key)

/-- Looks a key up. A stale entry counts as none and goes. -/
def get (c : Cache κ ν) (now : Nat) (key : κ) : Option ν × Cache κ ν :=
  match c.entries.find? fun (k, _) => k == key with
  | some (_, e) =>
    if e.isFresh now then (some e.value, { c with hits := c.hits + 1 })
    else (none, { c with entries := without key c.entries, misses := c.misses + 1 })
  | none => (none, { c with misses := c.misses + 1 })

/-- Stores a value as the newest entry, in place of an older one of its key. -/
def put (c : Cache κ ν) (now : Nat) (key : κ) (value : ν) (ttl : Nat) : Cache κ ν :=
  let entries := without key c.entries ++ [(key, ⟨value, now, ttl⟩)]
  { c with entries := entries.drop (entries.length - c.capacity) }

/-- `evict_expired`: the cache without its stale entries. -/
def evict (c : Cache κ ν) (now : Nat) : Cache κ ν :=
  { c with entries := c.entries.filter fun (_, e) => e.isFresh now }

def clear (c : Cache κ ν) : Cache κ ν :=
  { c with entries := [] }

def size (c : Cache κ ν) : Nat :=
  c.entries.length

def stats (c : Cache κ ν) : CacheStats :=
  ⟨c.size, c.capacity, c.hits, c.misses⟩

end Cache

end CodeAssist
