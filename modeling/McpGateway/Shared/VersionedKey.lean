import Mathlib.Data.Option.Basic

namespace McpGateway.Shared

structure Versioned (Value : Type) where
  value : Value
  revision : Nat

/-- One key of a store whose writes are numbered: what is stored under it, and the number of the store's last write. -/
structure VersionedKey (Value : Type) where
  stored : Option (Versioned Value)
  sequence : Nat
  numbered : ∀ entry ∈ stored, 0 < entry.revision ∧ entry.revision ≤ sequence

namespace VersionedKey

variable {Value : Type}

def absent (sequence : Nat) : VersionedKey Value where
  stored := none
  sequence := sequence
  numbered := by simp

def put (key : VersionedKey Value) (value : Value) : VersionedKey Value where
  stored := some ⟨value, key.sequence + 1⟩
  sequence := key.sequence + 1
  numbered := by simp

def create (key : VersionedKey Value) (value : Value) : Bool × VersionedKey Value :=
  if key.stored.isNone then (true, key.put value) else (false, key)

def update (key : VersionedKey Value) (value : Value) (revision : Nat) : Bool × VersionedKey Value :=
  if (key.stored.map Versioned.revision) = some revision then (true, key.put value) else (false, key)

def remove (key : VersionedKey Value) : VersionedKey Value :=
  absent key.sequence

def elsewhere (key : VersionedKey Value) : VersionedKey Value where
  stored := key.stored
  sequence := key.sequence + 1
  numbered := fun entry mem => (key.numbered entry mem).imp_right Nat.le_succ_of_le

/-- The revision belongs to the value: nothing else was, or will be, stored under it. -/
structure Knows (key : VersionedKey Value) (value : Value) (revision : Nat) : Prop where
  past : revision ≤ key.sequence
  same : ∀ entry ∈ key.stored, entry.revision = revision → entry.value = value

variable {key : VersionedKey Value} {value other : Value} {revision : Nat}

theorem knows_stored {entry : Versioned Value} (held : key.stored = some entry) :
    key.Knows entry.value entry.revision where
  past := (key.numbered entry held).2
  same := by simp [held]

theorem Knows.put (knows : key.Knows value revision) : (key.put other).Knows value revision where
  past := Nat.le_succ_of_le knows.past
  same := by
    intro entry mem number
    cases mem
    exact absurd knows.past (by simp only [← number]; omega)

theorem Knows.remove (knows : key.Knows value revision) : key.remove.Knows value revision where
  past := knows.past
  same := by simp [VersionedKey.remove, absent]

theorem Knows.elsewhere (knows : key.Knows value revision) : key.elsewhere.Knows value revision where
  past := Nat.le_succ_of_le knows.past
  same := knows.same

end VersionedKey

end McpGateway.Shared
