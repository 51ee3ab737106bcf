import Mathlib.Data.List.Basic
import ParserAlgebra.Arena

/-!
# Histories of arenas

What has been done with arenas, in order: arenas were created and dropped, slots allocated, values
stored, and stores refused. A slot is used as long as anyone remembers it, also after its arena has
been dropped. What the slots hold can be told from the history alone: no slot is given out twice,
and each holds the one value that was stored in it, until its arena is dropped.
-/

namespace ParserAlgebra

namespace Arenas

variable {α : Type}

inductive Event (α : Type) where
  | created (id : ArenaId)
  | allocated (slot : Slot)
  | stored (slot : Slot) (v : α)
  | refused (slot : Slot) (error : SlotError)
  | dropped (id : ArenaId)

/-- The arenas that a sequence of events leads to, the latest event last. Values are offered to
slots that have been allocated; a store that is refused leaves all arenas as they are. -/
inductive History : List (Event α) → Arenas α → Prop
  | empty : History [] .empty
  | create {es : List (Event α)} {a : Arenas α} (h : History es a) :
      History (es ++ [.created a.create.1]) a.create.2
  | alloc {es : List (Event α)} {a a' : Arenas α} {id : ArenaId} {slot : Slot} (h : History es a)
      (halloc : a.alloc id = some (slot, a')) : History (es ++ [.allocated slot]) a'
  | store {es : List (Event α)} {a a' : Arenas α} {slot : Slot} {v : α} (h : History es a)
      (hslot : .allocated slot ∈ es) (hstore : a.store slot v = .ok a') :
      History (es ++ [.stored slot v]) a'
  | refuse {es : List (Event α)} {a : Arenas α} {slot : Slot} {v : α} {error : SlotError}
      (h : History es a) (hslot : .allocated slot ∈ es) (hstore : a.store slot v = .error error) :
      History (es ++ [.refused slot error]) a
  | drop {es : List (Event α)} {a : Arenas α} {id : ArenaId} (h : History es a)
      (hid : .created id ∈ es) : History (es ++ [.dropped id]) (a.drop id)

section Slots

variable {a a' : Arenas α} {id : ArenaId} {slot : Slot} {v : α}

theorem lt_of_slots? {slots : List (Option α)} (h : a.slots? id = some slots) :
    id < a.arenas.length := by
  by_contra hlt
  rw [slots?, List.getElem?_eq_none (Nat.not_lt.1 hlt)] at h
  cases h

theorem slots?_set (hid : id < a.arenas.length) (slots? : Option (List (Option α)))
    (other : ArenaId) :
    (⟨a.arenas.set id slots?⟩ : Arenas α).slots? other =
      if other = id then slots? else a.slots? other := by
  unfold Arenas.slots?
  by_cases hother : other = id
  · subst hother
    rw [List.getElem?_set_self hid, if_pos rfl]
    rfl
  · rw [List.getElem?_set_ne (Ne.symm hother), if_neg hother]

theorem slots?_create (a : Arenas α) (other : ArenaId) :
    a.create.2.slots? other = if other = a.arenas.length then some [] else a.slots? other := by
  unfold Arenas.slots? create
  dsimp only
  rcases Nat.lt_trichotomy other a.arenas.length with hlt | rfl | hgt
  · rw [List.getElem?_append_left hlt, if_neg (Nat.ne_of_lt hlt)]
  · rw [List.getElem?_concat_length, if_pos rfl]
    rfl
  · have hlength : (a.arenas ++ [some []]).length ≤ other := by
      rw [List.length_append, List.length_singleton]
      exact Nat.succ_le_of_lt hgt
    rw [List.getElem?_eq_none hlength, List.getElem?_eq_none (Nat.le_of_lt hgt),
      if_neg (Nat.ne_of_gt hgt)]

/-- What allocating does: the slot is one behind those that are there. -/
theorem exists_of_alloc (h : a.alloc id = some (slot, a')) :
    ∃ slots, a.slots? id = some slots ∧ slot = ⟨id, slots.length⟩ ∧
      a'.arenas.length = a.arenas.length ∧
        ∀ other, a'.slots? other =
          if other = id then some (slots ++ [none]) else a.slots? other := by
  obtain ⟨slots, hslots, hresult⟩ := Option.map_eq_some_iff.1 h
  obtain ⟨rfl, rfl⟩ := Prod.mk.inj hresult
  exact ⟨slots, hslots, rfl, List.length_set, slots?_set (lt_of_slots? hslots) _⟩

/-- What storing does: the slot was empty, and nothing else is touched. -/
theorem exists_of_store (h : a.store slot v = .ok a') :
    ∃ slots, a.slots? slot.arena = some slots ∧ a.get? slot = none ∧
      a'.arenas.length = a.arenas.length ∧
        ∀ other, a'.slots? other =
          if other = slot.arena then some (slots.set slot.index (some v)) else a.slots? other := by
  unfold store at h
  split at h
  · cases h
  · rename_i slots hslots
    split at h
    · cases h
    · rename_i hempty
      cases h
      refine ⟨slots, hslots, ?_, List.length_set, slots?_set (lt_of_slots? hslots) _⟩
      rw [get?, hslots]
      simpa using hempty

theorem slots?_drop (hid : id < a.arenas.length) (other : ArenaId) :
    (a.drop id).slots? other = if other = id then none else a.slots? other :=
  slots?_set hid none other

/-- Slots of arenas with the same slots hold the same. -/
theorem get?_congr (h : a'.slots? slot.arena = a.slots? slot.arena) :
    a'.get? slot = a.get? slot := by
  rw [get?, get?, h]

theorem isSome_slots?_of_get? (h : a.get? slot = some v) : (a.slots? slot.arena).isSome := by
  rw [get?] at h
  obtain ⟨slots, hslots, -⟩ := Option.bind_eq_some_iff.1 h
  rw [hslots]
  rfl

/-- A new slot is empty, as it was before. -/
theorem get?_of_alloc (h : a.alloc id = some (slot, a')) (other : Slot) :
    a'.get? other = a.get? other := by
  obtain ⟨slots, hslots, -, -, hset⟩ := exists_of_alloc h
  by_cases hother : other.arena = id
  · rw [get?, get?, hset, if_pos hother, hother, hslots]
    dsimp only [Option.bind]
    rcases Nat.lt_trichotomy other.index slots.length with hlt | heq | hgt
    · rw [List.getElem?_append_left hlt]
    · rw [heq, List.getElem?_concat_length, List.getElem?_eq_none (Nat.le_refl _)]
      rfl
    · have hlength : (slots ++ [none]).length ≤ other.index := by
        rw [List.length_append, List.length_singleton]
        omega
      rw [List.getElem?_eq_none hlength, List.getElem?_eq_none (by omega)]
  · exact get?_congr (by rw [hset, if_neg hother])

/-- The slots of a new arena are empty, as they were before. -/
theorem get?_create (a : Arenas α) (other : Slot) : a.create.2.get? other = a.get? other := by
  by_cases hother : other.arena = a.arenas.length
  · have hnone : a.slots? other.arena = none := by
      rw [slots?, hother, List.getElem?_eq_none (Nat.le_refl _)]
      rfl
    rw [get?, get?, slots?_create, if_pos hother, hnone]
    rfl
  · exact get?_congr (by rw [slots?_create, if_neg hother])

/-- The slots of a dropped arena are empty, and no others are touched. -/
theorem get?_drop (a : Arenas α) (id : ArenaId) (slot : Slot) :
    (a.drop id).get? slot = if slot.arena = id then none else a.get? slot := by
  by_cases hid : id < a.arenas.length
  · by_cases hslot : slot.arena = id
    · rw [get?, slots?_drop hid, if_pos hslot, if_pos hslot]
      rfl
    · rw [get?_congr (a := a) (by rw [slots?_drop hid, if_neg hslot]), if_neg hslot]
  · rw [drop, List.set_eq_of_length_le (Nat.not_lt.1 hid)]
    split
    · rename_i hslot
      rw [get?, slots?, hslot, List.getElem?_eq_none (Nat.not_lt.1 hid)]
      rfl
    · rfl

theorem get?_of_drop (h : (a.drop id).get? slot = some v) : a.get? slot = some v := by
  rw [get?_drop] at h
  split at h
  · cases h
  · exact h

theorem eq_or_of_store {w : α} {other : Slot} (h : a.store slot v = .ok a')
    (hother : a'.get? other = some w) : w = v ∨ a.get? other = some w := by
  obtain ⟨slots, hslots, -, -, hset⟩ := exists_of_store h
  by_cases harena : other.arena = slot.arena
  · rw [get?, hset, if_pos harena, Option.bind_some, List.getElem?_set] at hother
    rw [get?, harena, hslots, Option.bind_some]
    split at hother
    · split at hother
      · exact .inl (Option.some.inj hother).symm
      · cases hother
    · exact .inr hother
  · rw [get?_congr (a := a) (by rw [hset, if_neg harena])] at hother
    exact .inr hother

/-- A successful store fills an allocated slot and leaves every other slot of every arena as it
is. -/
theorem get?_of_store {slots : List (Option α)} (hslots : a.slots? slot.arena = some slots)
    (hindex : slot.index < slots.length) (h : a.store slot v = .ok a') (other : Slot) :
    a'.get? other = if other = slot then some v else a.get? other := by
  obtain ⟨slots', hslots', -, -, hset⟩ := exists_of_store h
  obtain rfl : slots = slots' := Option.some.inj (hslots.symm.trans hslots')
  by_cases harena : other.arena = slot.arena
  · rw [get?, get?, hset, if_pos harena, harena, hslots]
    by_cases hsame : other.index = slot.index
    · have hother : other = slot := by
        cases other
        cases slot
        simp_all
      simp [hother, List.getElem?_set_self hindex]
    · have hother : other ≠ slot := fun h => hsame (h ▸ rfl)
      simp [hother, List.getElem?_set_ne (Ne.symm hsame)]
  · have hother : other ≠ slot := fun h => harena (h ▸ rfl)
    rw [if_neg hother]
    exact get?_congr (by rw [hset, if_neg harena])

end Slots

/-- What a history tells of the arenas it leads to. -/
structure Recorded (es : List (Event α)) (a : Arenas α) : Prop where
  created : ∀ id, .created id ∈ es ↔ id < a.arenas.length
  dropped : ∀ id, .dropped id ∈ es → id < a.arenas.length
  alive : ∀ id, (a.slots? id).isSome ↔ id < a.arenas.length ∧ .dropped id ∉ es
  allocated : ∀ slot, .allocated slot ∈ es → slot.arena < a.arenas.length
  size : ∀ id slots, a.slots? id = some slots →
    ∀ index, .allocated ⟨id, index⟩ ∈ es ↔ index < slots.length
  stored : ∀ slot v, .stored slot v ∈ es → .allocated slot ∈ es
  holds : ∀ slot, (a.slots? slot.arena).isSome →
    ∀ v, a.get? slot = some v ↔ .stored slot v ∈ es

namespace Recorded

variable {es : List (Event α)} {a a' : Arenas α} {id : ArenaId} {slot : Slot} {v : α}

theorem empty : Recorded [] (.empty : Arenas α) where
  created := by simp [Arenas.empty]
  dropped := by simp
  alive := by simp [Arenas.empty, slots?]
  allocated := by simp
  size := by simp [Arenas.empty, slots?]
  stored := by simp
  holds := by simp [Arenas.empty, slots?]

theorem create (h : Recorded es a) : Recorded (es ++ [.created a.create.1]) a.create.2 := by
  have hlength : a.create.2.arenas.length = a.arenas.length + 1 := List.length_append
  have hdropped : .dropped a.arenas.length ∉ es := fun hid => Nat.lt_irrefl _ (h.dropped _ hid)
  have hallocated (index : Nat) : .allocated ⟨a.arenas.length, index⟩ ∉ es :=
    fun hslot => Nat.lt_irrefl _ (h.allocated _ hslot)
  have hcreated : a.create.1 = a.arenas.length := rfl
  constructor
  · intro id
    simp only [List.mem_append, List.mem_singleton, Event.created.injEq, hlength, h.created,
      hcreated]
    exact Nat.lt_succ_iff_lt_or_eq.symm
  · intro id hid
    simp only [List.mem_append, List.mem_singleton, reduceCtorEq, or_false] at hid
    rw [hlength]
    exact Nat.lt_succ_of_lt (h.dropped id hid)
  · intro id
    rw [slots?_create, hlength]
    by_cases hid : id = a.arenas.length
    · simp [hid, hdropped]
    · have hlt : id < a.arenas.length + 1 ↔ id < a.arenas.length :=
        ⟨fun h => Nat.lt_of_le_of_ne (Nat.le_of_lt_succ h) hid, Nat.lt_succ_of_lt⟩
      rw [if_neg hid, h.alive, hlt]
      simp
  · intro slot hslot
    simp only [List.mem_append, List.mem_singleton, reduceCtorEq, or_false] at hslot
    rw [hlength]
    exact Nat.lt_succ_of_lt (h.allocated slot hslot)
  · intro id slots hslots index
    rw [slots?_create] at hslots
    by_cases hid : id = a.arenas.length
    · obtain rfl : [] = slots := by simpa [hid] using hslots
      simp [hid, hallocated]
    · simpa using h.size id slots (by simpa [hid] using hslots) index
  · intro slot v hslot
    simp only [List.mem_append, List.mem_singleton, reduceCtorEq, or_false] at hslot ⊢
    exact h.stored slot v hslot
  · intro slot halive v
    simp only [List.mem_append, List.mem_singleton, reduceCtorEq, or_false]
    rw [slots?_create] at halive
    by_cases hid : slot.arena = a.arenas.length
    · have hempty : a.create.2.get? slot = none := by simp [get?, slots?_create, hid]
      rw [hempty]
      refine ⟨nofun, fun hslot => absurd (h.allocated slot (h.stored slot v hslot)) ?_⟩
      rw [hid]
      exact Nat.lt_irrefl _
    · rw [if_neg hid] at halive
      rw [get?_congr (a := a) (by rw [slots?_create, if_neg hid]), h.holds slot halive]

theorem alloc (h : Recorded es a) (halloc : a.alloc id = some (slot, a')) :
    Recorded (es ++ [.allocated slot]) a' := by
  obtain ⟨slots, hslots, rfl, hlength, hset⟩ := exists_of_alloc halloc
  have hid : id < a.arenas.length := lt_of_slots? hslots
  constructor
  · simpa [hlength] using h.created
  · simpa [hlength] using h.dropped
  · intro other
    by_cases hother : other = id
    · have halive := h.alive id
      simp only [hslots, Option.isSome_some, true_iff] at halive
      simpa [hother, hset, hlength] using halive
    · simpa [hother, hset, hlength] using h.alive other
  · intro other hallocated
    rw [hlength]
    simp only [List.mem_append, List.mem_singleton, Event.allocated.injEq] at hallocated
    rcases hallocated with hallocated | rfl
    · exact h.allocated other hallocated
    · exact hid
  · intro other slots' hslots' index
    simp only [List.mem_append, List.mem_singleton, Event.allocated.injEq, Slot.mk.injEq]
    by_cases hother : other = id
    · obtain rfl : slots ++ [none] = slots' := by simpa [hother, hset] using hslots'
      rw [hother, h.size id slots hslots, List.length_append, List.length_singleton]
      simp only [true_and]
      exact Nat.lt_succ_iff_lt_or_eq.symm
    · simpa [hother] using h.size other slots' (by simpa [hother, hset] using hslots') index
  · intro other v hstored
    simp only [List.mem_append, List.mem_singleton, reduceCtorEq, or_false] at hstored ⊢
    exact .inl (h.stored other v hstored)
  · intro other halive v
    simp only [List.mem_append, List.mem_singleton, reduceCtorEq, or_false]
    have hbefore : (a.slots? other.arena).isSome := by
      rw [hset] at halive
      split at halive
      · rename_i hother
        rw [hother, hslots]
        rfl
      · exact halive
    rw [get?_of_alloc halloc, h.holds other hbefore]

theorem store (h : Recorded es a) (hslot : .allocated slot ∈ es)
    (hstore : a.store slot v = .ok a') : Recorded (es ++ [.stored slot v]) a' := by
  obtain ⟨slots, hslots, hempty, hlength, hset⟩ := exists_of_store hstore
  have hindex : slot.index < slots.length := (h.size slot.arena slots hslots slot.index).1 hslot
  have halive (id : ArenaId) : (a'.slots? id).isSome = (a.slots? id).isSome := by
    rw [hset]
    split
    · rename_i hid
      rw [hid, hslots]
      rfl
    · rfl
  constructor
  · simpa [hlength] using h.created
  · simpa [hlength] using h.dropped
  · intro id
    simpa [halive, hlength] using h.alive id
  · simpa [hlength] using h.allocated
  · intro id slots' hslots' index
    simp only [List.mem_append, List.mem_singleton, reduceCtorEq, or_false]
    rw [hset] at hslots'
    by_cases hid : id = slot.arena
    · rw [if_pos hid] at hslots'
      cases hslots'
      rw [List.length_set, hid]
      exact h.size slot.arena slots hslots index
    · rw [if_neg hid] at hslots'
      exact h.size id slots' hslots' index
  · intro other w hstored
    simp only [List.mem_append, List.mem_singleton, Event.stored.injEq, reduceCtorEq,
      or_false] at hstored ⊢
    rcases hstored with hstored | ⟨rfl, rfl⟩
    · exact h.stored other w hstored
    · exact hslot
  · intro other hother w
    rw [halive] at hother
    simp only [List.mem_append, List.mem_singleton, Event.stored.injEq]
    rw [get?_of_store hslots hindex hstore]
    by_cases hsame : other = slot
    · subst hsame
      have hnot : .stored other w ∉ es := by
        rw [← h.holds other hother, hempty]
        exact nofun
      simp [hnot, eq_comm]
    · simpa [hsame] using h.holds other hother w

theorem refuse (h : Recorded es a) (slot : Slot) (error : SlotError) :
    Recorded (es ++ [.refused slot error]) a := by
  constructor
  · simpa using h.created
  · simpa using h.dropped
  · simpa using h.alive
  · simpa using h.allocated
  · simpa using h.size
  · simpa using h.stored
  · simpa using h.holds

theorem drop (h : Recorded es a) (hid : .created id ∈ es) :
    Recorded (es ++ [.dropped id]) (a.drop id) := by
  have hlt : id < a.arenas.length := (h.created id).1 hid
  have hlength : (a.drop id).arenas.length = a.arenas.length := List.length_set
  constructor
  · simpa [hlength] using h.created
  · intro other hother
    rw [hlength]
    simp only [List.mem_append, List.mem_singleton, Event.dropped.injEq] at hother
    rcases hother with hother | rfl
    · exact h.dropped other hother
    · exact hlt
  · intro other
    rw [slots?_drop hlt, hlength]
    by_cases hother : other = id
    · simp [hother]
    · simpa [hother] using h.alive other
  · simpa [hlength] using h.allocated
  · intro other slots hslots index
    rw [slots?_drop hlt] at hslots
    by_cases hother : other = id
    · simp [hother] at hslots
    · simpa using h.size other slots (by simpa [hother] using hslots) index
  · simpa using h.stored
  · intro slot halive v
    rw [slots?_drop hlt] at halive
    by_cases harena : slot.arena = id
    · simp [harena] at halive
    · rw [if_neg harena] at halive
      rw [get?_congr (a := a) (by rw [slots?_drop hlt, if_neg harena])]
      simpa using h.holds slot halive v

end Recorded

theorem History.recorded {es : List (Event α)} {a : Arenas α} (h : History es a) :
    Recorded es a := by
  induction h with
  | empty => exact .empty
  | create _ ih => exact ih.create
  | alloc _ halloc ih => exact ih.alloc halloc
  | store _ hslot hstore ih => exact ih.store hslot hstore
  | refuse _ _ _ ih => exact ih.refuse _ _
  | drop _ hid ih => exact ih.drop hid

theorem History.pairwise_allocated {es : List (Event α)} {a : Arenas α} (h : History es a) :
    es.Pairwise fun e e' => ∀ slot, e = .allocated slot → e' ≠ .allocated slot := by
  induction h with
  | empty => exact .nil
  | @alloc es a a' id slot h halloc ih =>
      obtain ⟨slots, hslots, rfl, -⟩ := exists_of_alloc halloc
      refine List.pairwise_append.2 ⟨ih, List.pairwise_singleton _ _, ?_⟩
      rintro _ hold _ hnew other rfl hother
      obtain rfl := List.mem_singleton.1 hnew
      obtain rfl := Event.allocated.inj hother
      exact Nat.lt_irrefl _ ((h.recorded.size id slots hslots slots.length).1 hold)
  | create _ ih | store _ _ _ ih | refuse _ _ _ ih | drop _ _ ih =>
      refine List.pairwise_append.2 ⟨ih, List.pairwise_singleton _ _, ?_⟩
      rintro _ _ _ hnew _ _ rfl
      cases List.mem_singleton.1 hnew

theorem History.pairwise_stored {es : List (Event α)} {a : Arenas α} (h : History es a) :
    es.Pairwise fun e e' => ∀ slot v w, e = .stored slot v → e' ≠ .stored slot w := by
  induction h with
  | empty => exact .nil
  | @store es a a' slot v h hslot hstore ih =>
      obtain ⟨slots, hslots, hempty, -⟩ := exists_of_store hstore
      refine List.pairwise_append.2 ⟨ih, List.pairwise_singleton _ _, ?_⟩
      rintro _ hold _ hnew other w v' rfl hother
      obtain rfl := List.mem_singleton.1 hnew
      obtain ⟨rfl, -⟩ := Event.stored.inj hother
      have hholds := (h.recorded.holds slot (by rw [hslots]; rfl) w).2 hold
      rw [hempty] at hholds
      cases hholds
  | create _ ih | alloc _ _ ih | refuse _ _ _ ih | drop _ _ ih =>
      refine List.pairwise_append.2 ⟨ih, List.pairwise_singleton _ _, ?_⟩
      rintro _ _ _ hnew _ _ _ _ rfl
      cases List.mem_singleton.1 hnew

/-- Slots that are written once at most and are never mixed up, told from what has been done. -/
structure WriteOnce (es : List (Event α)) (a : Arenas α) : Prop where
  allocated_once : es.Pairwise fun e e' => ∀ slot, e = .allocated slot → e' ≠ .allocated slot
  stored_once : es.Pairwise fun e e' => ∀ slot v w, e = .stored slot v → e' ≠ .stored slot w
  get? : ∀ slot, .allocated slot ∈ es → ∀ v,
    a.get? slot = some v ↔ .stored slot v ∈ es ∧ .dropped slot.arena ∉ es
  store_eq_arenaDropped : ∀ slot, .allocated slot ∈ es → ∀ v,
    a.store slot v = .error .arenaDropped ↔ .dropped slot.arena ∈ es
  store_eq_occupied : ∀ slot, .allocated slot ∈ es → ∀ v,
    a.store slot v = .error .occupied ↔ .dropped slot.arena ∉ es ∧ ∃ w, .stored slot w ∈ es
  store_eq_ok : ∀ slot, .allocated slot ∈ es → ∀ v a', a.store slot v = .ok a' →
    ∀ other, a'.get? other = if other = slot then some v else a.get? other

theorem History.writeOnce {es : List (Event α)} {a : Arenas α} (h : History es a) :
    WriteOnce es a := by
  have hrecorded := h.recorded
  have halive {slot : Slot} (hslot : .allocated slot ∈ es) :
      (a.slots? slot.arena).isSome ↔ .dropped slot.arena ∉ es := by
    rw [hrecorded.alive, and_iff_right (hrecorded.allocated slot hslot)]
  have hget {slot : Slot} (hslot : .allocated slot ∈ es) (v : α) :
      a.get? slot = some v ↔ .stored slot v ∈ es ∧ .dropped slot.arena ∉ es := by
    constructor
    · intro hv
      have hisSome := isSome_slots?_of_get? hv
      exact ⟨(hrecorded.holds slot hisSome v).1 hv, (halive hslot).1 hisSome⟩
    · rintro ⟨hstored, hdropped⟩
      exact (hrecorded.holds slot ((halive hslot).2 hdropped) v).2 hstored
  refine ⟨h.pairwise_allocated, h.pairwise_stored, fun slot => hget, ?_, ?_, ?_⟩
  · intro slot hslot v
    rw [store_eq_arenaDropped_iff, ← Option.not_isSome_iff_eq_none, halive hslot, not_not]
  · intro slot hslot v
    rw [store_eq_occupied_iff, Option.isSome_iff_exists]
    constructor
    · rintro ⟨w, hw⟩
      exact ⟨((hget hslot w).1 hw).2, w, ((hget hslot w).1 hw).1⟩
    · rintro ⟨hdropped, w, hw⟩
      exact ⟨w, (hget hslot w).2 ⟨hw, hdropped⟩⟩
  · intro slot hslot v a' hstore other
    obtain ⟨slots, hslots, -⟩ := exists_of_store hstore
    exact get?_of_store hslots ((hrecorded.size _ _ hslots _).1 hslot) hstore other

end Arenas

end ParserAlgebra
