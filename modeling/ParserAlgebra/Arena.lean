/-!
# Arenas of write-once slots

Slots are allocated in arenas. A slot is filled at most once; dropping an arena drops what its slots
hold, and its slots stay empty for ever, for the number of an arena is never given out again.
-/

namespace ParserAlgebra

/-- An arena, by its number among all arenas. -/
abbrev ArenaId :=
  Nat

/-- A slot, by its arena and its number in it. -/
structure Slot where
  arena : ArenaId
  index : Nat
  deriving DecidableEq

inductive SlotError where
  | occupied
  | arenaDropped
  deriving DecidableEq

def SlotError.message : SlotError → String
  | .occupied => "grammar handle defined twice"
  | .arenaDropped => "grammar handle defined after its arena was dropped"

/-- All arenas, the dropped ones as `none`, with the contents of their slots. -/
structure Arenas (α : Type) where
  arenas : List (Option (List (Option α)))

namespace Arenas

variable {α : Type}

def empty : Arenas α :=
  ⟨[]⟩

def create (a : Arenas α) : ArenaId × Arenas α :=
  (a.arenas.length, ⟨a.arenas ++ [some []]⟩)

/-- The slots of a live arena. -/
def slots? (a : Arenas α) (id : ArenaId) : Option (List (Option α)) :=
  (a.arenas[id]?).join

/-- Allocates an empty slot in a live arena. -/
def alloc (a : Arenas α) (id : ArenaId) : Option (Slot × Arenas α) :=
  (a.slots? id).map fun slots =>
    (⟨id, slots.length⟩, ⟨a.arenas.set id (some (slots ++ [none]))⟩)

def drop (a : Arenas α) (id : ArenaId) : Arenas α :=
  ⟨a.arenas.set id none⟩

def get? (a : Arenas α) (s : Slot) : Option α :=
  (a.slots? s.arena).bind fun slots => (slots[s.index]?).join

def store (a : Arenas α) (s : Slot) (v : α) : Except SlotError (Arenas α) :=
  match a.slots? s.arena with
  | none => .error .arenaDropped
  | some slots =>
    if ((slots[s.index]?).join).isSome then .error .occupied
    else .ok ⟨a.arenas.set s.arena (some (slots.set s.index (some v)))⟩

/-- What the slots of live arenas hold. -/
def contents (a : Arenas α) : List α :=
  a.arenas.flatMap fun slots? => (slots?.getD []).filterMap id

theorem store_eq_arenaDropped_iff {a : Arenas α} {s : Slot} {v : α} :
    a.store s v = .error .arenaDropped ↔ a.slots? s.arena = none := by
  unfold store
  split
  · simp_all
  · split <;> simp_all

theorem store_eq_occupied_iff {a : Arenas α} {s : Slot} {v : α} :
    a.store s v = .error .occupied ↔ (a.get? s).isSome = true := by
  unfold store get?
  split
  · simp_all
  · split <;> simp_all

end Arenas

end ParserAlgebra
