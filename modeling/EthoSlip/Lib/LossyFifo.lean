import EthoSlip.Lib.Fifo
import Mathlib.Tactic

/-!
# A FIFO that loses what it has no room for

A producer puts elements into a bounded FIFO whenever they arrive, a consumer takes them when it
gets to it, and an element that meets a full FIFO is lost. Over any interleaving the consumer takes
a beginning of what is kept, and what is kept is all that arrives exactly when the consumer is
never a whole capacity behind.
-/

namespace EthoSlip.Lib

variable {capacity : Nat} {α : Type*}

namespace Fifo

def offer (f : Fifo capacity α) (a : α) : Fifo capacity α := (f.put a).getD f

lemma offer_of_lt {f : Fifo capacity α} (h : f.items.length < capacity) (a : α) :
    (f.offer a).items = f.items ++ [a] := by
  obtain ⟨f', hput, hitems⟩ := f.put_of_lt a h
  rw [offer, hput, Option.getD_some, hitems]

lemma offer_of_full {f : Fifo capacity α} (h : f.items.length = capacity) (a : α) :
    f.offer a = f := by
  rw [offer, (f.put_eq_none a).mpr h, Option.getD_none]

lemma poll_some {f f' : Fifo capacity α} {a : α} (h : f.poll = some (a, f')) :
    f.items = a :: f'.items := by
  obtain ⟨items, hbounded⟩ := f
  cases items with
  | nil => cases h
  | cons b items =>
    rw [poll, Option.some.injEq, Prod.mk.injEq] at h
    rw [← h.1, ← h.2]

end Fifo

/-- What happens next: an element arrives, or the consumer looks for one. -/
inductive Tick (α : Type*) where
  | arrive (a : α)
  | take
  deriving DecidableEq

namespace Tick

def arrived : List (Tick α) → List α
  | [] => []
  | arrive a :: ticks => a :: arrived ticks
  | take :: ticks => arrived ticks

lemma arrived_append (s t : List (Tick α)) : arrived (s ++ t) = arrived s ++ arrived t := by
  induction s with
  | nil => rfl
  | cons e s ih =>
    cases e with
    | arrive a => rw [List.cons_append, arrived, ih, arrived, List.cons_append]
    | take => exact ih

end Tick

namespace Fifo

/-- What the consumer takes. -/
def taken : Fifo capacity α → List (Tick α) → List α
  | _, [] => []
  | f, .arrive a :: ticks => taken (f.offer a) ticks
  | f, .take :: ticks =>
    match f.poll with
    | none => taken f ticks
    | some (a, f) => a :: taken f ticks

/-- What the FIFO has room for when it arrives. -/
def kept : Fifo capacity α → List (Tick α) → List α
  | _, [] => []
  | f, .arrive a :: ticks =>
    if f.items.length < capacity then a :: kept (f.offer a) ticks else kept (f.offer a) ticks
  | f, .take :: ticks =>
    match f.poll with
    | none => kept f ticks
    | some (_, f) => kept f ticks

/-- What is left in the FIFO. -/
def left : Fifo capacity α → List (Tick α) → Fifo capacity α
  | f, [] => f
  | f, .arrive a :: ticks => left (f.offer a) ticks
  | f, .take :: ticks =>
    match f.poll with
    | none => left f ticks
    | some (_, f) => left f ticks

lemma left_append (f : Fifo capacity α) (s t : List (Tick α)) :
    f.left (s ++ t) = (f.left s).left t := by
  induction s generalizing f with
  | nil => rfl
  | cons e s ih =>
    cases e with
    | arrive a => exact ih _
    | take =>
      rw [List.cons_append, left, left]
      cases f.poll with
      | none => exact ih f
      | some r => exact ih r.2

lemma kept_append (f : Fifo capacity α) (s t : List (Tick α)) :
    f.kept (s ++ t) = f.kept s ++ (f.left s).kept t := by
  induction s generalizing f with
  | nil => rfl
  | cons e s ih =>
    cases e with
    | arrive a =>
      rw [List.cons_append, kept, kept, left]
      split_ifs
      · rw [List.cons_append]
        exact congrArg (List.cons a) (ih _)
      · exact ih _
    | take =>
      rw [List.cons_append, kept, kept, left]
      cases f.poll with
      | none => exact ih f
      | some r => exact ih r.2

/-- Nothing that is kept is lost, doubled or moved. -/
theorem taken_append_left (f : Fifo capacity α) (ticks : List (Tick α)) :
    f.taken ticks ++ (f.left ticks).items = f.items ++ f.kept ticks := by
  induction ticks generalizing f with
  | nil => rw [taken, left, kept, List.nil_append, List.append_nil]
  | cons e ticks ih =>
    cases e with
    | arrive a =>
      rw [taken, left, kept, ih]
      by_cases h : f.items.length < capacity
      · rw [if_pos h, offer_of_lt h, List.append_assoc, List.singleton_append]
      · have hbounded := f.bounded
        rw [if_neg h, offer_of_full (by omega)]
    | take =>
      rw [taken, left, kept]
      cases hpoll : f.poll with
      | none => exact ih f
      | some r =>
        rw [poll_some hpoll, List.cons_append, List.cons_append]
        exact congrArg (List.cons r.1) (ih r.2)

lemma kept_sublist (f : Fifo capacity α) (ticks : List (Tick α)) :
    (f.kept ticks).Sublist (Tick.arrived ticks) := by
  induction ticks generalizing f with
  | nil => exact List.Sublist.refl _
  | cons e ticks ih =>
    cases e with
    | arrive a =>
      rw [kept, Tick.arrived]
      split_ifs
      · exact (ih _).cons_cons a
      · exact (ih _).cons a
    | take =>
      rw [kept, Tick.arrived]
      cases f.poll with
      | none => exact ih f
      | some r => exact ih r.2

/-! ### Bursts -/

/-- Of what arrives while the consumer does not look, the FIFO keeps what fits. -/
theorem kept_burst (f : Fifo capacity α) (w : List α) :
    f.kept (w.map .arrive) = w.take (capacity - f.items.length) := by
  induction w generalizing f with
  | nil =>
    rw [List.take_nil]
    rfl
  | cons a w ih =>
    rw [List.map_cons, kept]
    by_cases h : f.items.length < capacity
    · obtain ⟨k, hk⟩ := Nat.exists_eq_add_of_lt h
      have hroom : capacity - f.items.length = k + 1 := by omega
      rw [if_pos h, ih, offer_of_lt h, hroom, List.take_succ_cons, List.length_append,
        List.length_singleton]
      congr 2
      omega
    · have hbounded := f.bounded
      have hroom : capacity - f.items.length = 0 := by omega
      rw [if_neg h, ih, offer_of_full (by omega), hroom, List.take_zero, List.take_zero]

lemma left_drain (f : Fifo capacity α) {n : Nat} (h : f.items.length ≤ n) :
    f.left (List.replicate n .take) = .empty := by
  induction n generalizing f with
  | zero =>
    apply Fifo.ext
    exact List.eq_nil_of_length_eq_zero (Nat.le_zero.mp h)
  | succ n ih =>
    rw [List.replicate_succ, left]
    cases hpoll : f.poll with
    | none =>
      rw [(f.poll_eq_none).mp hpoll]
      exact ih .empty (Nat.zero_le n)
    | some r =>
      have hitems := congrArg List.length (poll_some hpoll)
      rw [List.length_cons] at hitems
      exact ih r.2 (by omega)

lemma kept_drain (f : Fifo capacity α) (n : Nat) : f.kept (List.replicate n .take) = [] := by
  induction n generalizing f with
  | zero => rfl
  | succ n ih =>
    rw [List.replicate_succ, kept]
    cases f.poll with
    | none => exact ih f
    | some r => exact ih r.2

/-- Whenever an element arrives, fewer than `capacity` of those before it are not yet taken. -/
def KeepsUp (f : Fifo capacity α) (ticks : List (Tick α)) : Prop :=
  ∀ before a after, ticks = before ++ .arrive a :: after →
    f.items.length + (Tick.arrived before).length < (f.taken before).length + capacity

lemma kept_eq_arrived_of_append {f : Fifo capacity α} {s t : List (Tick α)}
    (h : f.kept (s ++ t) = Tick.arrived (s ++ t)) : f.kept s = Tick.arrived s := by
  rw [kept_append, Tick.arrived_append] at h
  have hs := (f.kept_sublist s).length_le
  have ht := ((f.left s).kept_sublist t).length_le
  have hlength := congrArg List.length h
  rw [List.length_append, List.length_append] at hlength
  exact (f.kept_sublist s).eq_of_length (by omega)

theorem kept_eq_arrived_iff (f : Fifo capacity α) (ticks : List (Tick α)) :
    f.kept ticks = Tick.arrived ticks ↔ f.KeepsUp ticks := by
  have hbehind : ∀ before, f.kept before = Tick.arrived before →
      f.items.length + (Tick.arrived before).length =
        (f.taken before).length + (f.left before).items.length := by
    intro before h
    have hlength := congrArg List.length (f.taken_append_left before)
    rw [List.length_append, List.length_append, h] at hlength
    exact hlength.symm
  constructor
  · rintro h before a after rfl
    have hbefore := kept_eq_arrived_of_append h
    have hnext : (f.left before).kept (.arrive a :: after) =
        Tick.arrived (.arrive a :: after) := by
      rw [kept_append, Tick.arrived_append, hbefore] at h
      exact List.append_cancel_left h
    have hroom : (f.left before).items.length < capacity := by
      by_contra hfull
      rw [kept, if_neg hfull, Tick.arrived] at hnext
      have hshort := (((f.left before).offer a).kept_sublist after).length_le
      have hlength := congrArg List.length hnext
      rw [List.length_cons] at hlength
      omega
    have hsame := hbehind before hbefore
    omega
  · intro h
    induction ticks using List.reverseRecOn with
    | nil => rfl
    | append_singleton before e ih =>
      have hbefore : f.kept before = Tick.arrived before := by
        apply ih
        rintro earlier a after rfl
        apply h earlier a (after ++ [e])
        rw [List.append_assoc, List.cons_append]
      rw [kept_append, Tick.arrived_append, hbefore]
      congr 1
      cases e with
      | take =>
        rw [kept, Tick.arrived]
        cases (f.left before).poll with
        | none => rfl
        | some r => rfl
      | arrive a =>
        have hroom := h before a [] rfl
        have hsame := hbehind before hbefore
        rw [kept, if_pos (by omega)]
        rfl

end Fifo

end EthoSlip.Lib
