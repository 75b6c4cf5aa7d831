import EthoSlip.Lib.Ring

/-!
# Bounded FIFOs

A list that holds at most `capacity` elements, the oldest one first. A circular buffer with one more
slot than that implements it: the free slot tells the full buffer from the empty one.
-/

namespace EthoSlip.Lib

@[ext] structure Fifo (capacity : Nat) (α : Type*) where
  items : List α
  bounded : items.length ≤ capacity
  deriving DecidableEq, Repr

namespace Fifo

variable {capacity : Nat} {α : Type*}

def empty : Fifo capacity α := ⟨[], Nat.zero_le _⟩

/-- The FIFO with `a` at its end, if there is room. -/
def put (f : Fifo capacity α) (a : α) : Option (Fifo capacity α) :=
  if h : f.items.length < capacity then some ⟨f.items ++ [a], by simpa using h⟩ else none

/-- The oldest element and the FIFO without it, if there is one. -/
def poll : Fifo capacity α → Option (α × Fifo capacity α)
  | ⟨[], _⟩ => none
  | ⟨a :: items, h⟩ => some (a, ⟨items, (Nat.le_succ _).trans h⟩)

lemma put_eq_none (f : Fifo capacity α) (a : α) : f.put a = none ↔ f.items.length = capacity := by
  have hbounded := f.bounded
  by_cases h : f.items.length < capacity
  · rw [put, dif_pos h]
    exact iff_of_false (Option.some_ne_none _) h.ne
  · rw [put, dif_neg h]
    exact iff_of_true rfl (by omega)

lemma put_of_lt (f : Fifo capacity α) (a : α) (h : f.items.length < capacity) :
    ∃ f', f.put a = some f' ∧ f'.items = f.items ++ [a] :=
  ⟨_, dif_pos h, rfl⟩

lemma poll_eq_none (f : Fifo capacity α) : f.poll = none ↔ f = .empty := by
  obtain ⟨items, h⟩ := f
  cases items with
  | nil => exact iff_of_true rfl rfl
  | cons a items =>
    refine iff_of_false (Option.some_ne_none _) ?_
    intro hempty
    exact List.cons_ne_nil a items (congrArg Fifo.items hempty)

lemma head?_items (f : Fifo capacity α) : f.items.head? = f.poll.map Prod.fst := by
  obtain ⟨items, h⟩ := f
  cases items with
  | nil => rfl
  | cons a items => rfl

end Fifo

namespace Ring

variable {capacity : Nat} {α : Type*} (r : Ring (capacity + 1) α)

def toFifo : Fifo capacity α :=
  ⟨r.contents, by rw [length_contents]; exact Nat.le_of_lt_succ r.length_lt⟩

lemma full_iff : wrap (capacity + 1) (r.rear + 1) = r.front ↔ r.toFifo.items.length = capacity := by
  rw [← length_eq_pred, ← length_contents]
  rfl

lemma empty_iff : r.front = r.rear ↔ r.toFifo = .empty := by
  constructor
  · intro h
    have hlength : r.contents.length = 0 := by
      rw [length_contents, length, h, if_pos le_rfl, Nat.sub_self]
    apply Fifo.ext
    exact List.eq_nil_of_length_eq_zero hlength
  · intro h
    by_contra hne
    have hcontents : r.contents = [] := congrArg Fifo.items h
    rw [r.contents_advanceFront hne] at hcontents
    exact List.cons_ne_nil _ _ hcontents

lemma toFifo_put (a : α) (h : wrap (capacity + 1) (r.rear + 1) ≠ r.front) :
    r.toFifo.put a = some (r.store a).advanceRear.toFifo := by
  have hroom : r.toFifo.items.length < capacity := by
    have hne := (not_congr r.full_iff).mp h
    have hbounded := r.toFifo.bounded
    omega
  have hslot : (r.store a).slot (r.store a).rear = a := Function.update_self _ _ _
  have hcontents : (r.store a).advanceRear.contents = r.contents ++ [a] := by
    rw [(r.store a).contents_advanceRear h, contents_store, hslot]
  rw [Fifo.put, dif_pos hroom, Option.some.injEq]
  apply Fifo.ext
  exact hcontents.symm

lemma toFifo_poll (h : r.front ≠ r.rear) :
    r.toFifo.poll = some (r.slot r.front, r.advanceFront.toFifo) := by
  have hcontents := r.contents_advanceFront h
  have hself : r.toFifo = ⟨r.slot r.front :: r.advanceFront.contents, by
      rw [← hcontents]; exact r.toFifo.bounded⟩ := Fifo.ext hcontents
  rw [hself]
  rfl

lemma toFifo_clear : r.clear.toFifo = .empty := by
  rw [← empty_iff]
  rfl

end Ring

end EthoSlip.Lib
