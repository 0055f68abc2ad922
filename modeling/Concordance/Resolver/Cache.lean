import Concordance.Link.Outcome

/-! # The cache of resolutions

Outcomes by what was resolved where, failures included. The first outcome stored
for a key stays. Keys whose resolution has begun and not ended are marked, so that
a resolution that asks for itself is noticed.
-/

namespace Concordance

/-- What is resolved, and where. -/
structure CacheKey where
  /-- The bundle that resolves it. -/
  bundle : String
  text : String
  /-- The page that the link stands on, if that matters for it. -/
  scope : Option Address
  deriving Repr, DecidableEq

/-- The outcomes known so far. -/
structure Cache where
  entries : List (CacheKey × Resolution) := []
  /-- How often an outcome was asked for and known. -/
  hits : Nat := 0
  /-- How often an outcome was asked for and not known. -/
  misses : Nat := 0
  /-- The keys that are being resolved. -/
  inFlight : List CacheKey := []
  deriving DecidableEq

namespace Cache

def find? (c : Cache) (key : CacheKey) : Option Resolution := c.entries.lookup key

def size (c : Cache) : Nat := c.entries.length

def get (c : Cache) (key : CacheKey) : Option Resolution × Cache :=
  match c.find? key with
  | some outcome => (some outcome, { c with hits := c.hits + 1 })
  | none => (none, { c with misses := c.misses + 1 })

/-- Store an outcome unless the key has one. The outcome that is stored then is given back. -/
def insert (c : Cache) (key : CacheKey) (outcome : Resolution) : Resolution × Cache :=
  match c.find? key with
  | some stored => (stored, c)
  | none => (outcome, { c with entries := (key, outcome) :: c.entries })

/-- What asking for an outcome gave that is made where there is none. -/
structure Answer where
  outcome : Resolution
  /-- Whether it was made now. -/
  made : Bool

/-- Ask for the outcome of a key, and store the given one if there is none. -/
def getOrInsert (c : Cache) (key : CacheKey) (outcome : Resolution) : Answer × Cache :=
  match c.get key with
  | (some stored, c) => (⟨stored, false⟩, c)
  | (none, c) =>
      let (stored, c) := c.insert key outcome
      (⟨stored, true⟩, c)

/-- Mark a key as being resolved, unless it is. -/
def begin? (c : Cache) (key : CacheKey) : Option Cache :=
  if c.inFlight.contains key then none else some { c with inFlight := key :: c.inFlight }

/-- Take the mark off a key. -/
def finish (c : Cache) (key : CacheKey) : Cache :=
  { c with inFlight := c.inFlight.filter (· != key) }

/-- Forget all outcomes and start counting anew. Marks stay. -/
def clear (c : Cache) : Cache := { inFlight := c.inFlight }

end Cache

end Concordance
