import Mathlib.Tactic
import Mathlib.Data.List.Basic

/-!
# Packets on a shared channel

Writers put packets on one channel, symbol by symbol; `out p` is what the packet `p` looks like
there. The channel is framed while it carries whole packets and the beginning of at most one more.
-/

namespace EthoSlip.Lib

variable {π α : Type*} (out : π → List α)

/-- Whole packets, and a beginning of one more. -/
def Framed (ch : List α) : Prop :=
  ∃ (done : List π) (p : π) (begun : List α), ch = done.flatMap out ++ begun ∧ begun <+: out p

/-- `rest` is what is still to be written of a packet that has been started, if there is one. -/
def Pending (ch rest : List α) : Prop :=
  ∃ done : List π, ch = done.flatMap out ∧ rest = [] ∨
    ∃ p begun, ch = done.flatMap out ++ begun ∧ begun ++ rest = out p

variable {out}

lemma pending_nil : Pending out [] [] := ⟨[], .inl ⟨rfl, rfl⟩⟩

lemma Pending.start {ch : List α} (h : Pending out ch []) (p : π) : Pending out ch (out p) := by
  obtain ⟨done, ⟨rfl, -⟩ | ⟨q, begun, rfl, hbegun⟩⟩ := h
  · refine ⟨done, .inr ⟨p, [], ?_, rfl⟩⟩
    rw [List.append_nil]
  · rw [List.append_nil] at hbegun
    refine ⟨done ++ [q], .inr ⟨p, [], ?_, rfl⟩⟩
    rw [hbegun, List.flatMap_append, List.flatMap_singleton, List.append_nil]

lemma Pending.write {ch rest : List α} {c : α} (h : Pending out ch (c :: rest)) :
    Pending out (ch ++ [c]) rest := by
  obtain ⟨done, ⟨-, hnil⟩ | ⟨p, begun, rfl, hbegun⟩⟩ := h
  · exact absurd hnil (List.cons_ne_nil _ _)
  · refine ⟨done, .inr ⟨p, begun ++ [c], ?_, ?_⟩⟩
    · rw [List.append_assoc]
    · rw [List.append_assoc, List.singleton_append, hbegun]

lemma Pending.framed [Inhabited π] {ch rest : List α} (h : Pending out ch rest) :
    Framed out ch := by
  obtain ⟨done, ⟨rfl, -⟩ | ⟨p, begun, rfl, hbegun⟩⟩ := h
  · refine ⟨done, default, [], ?_, List.nil_prefix⟩
    rw [List.append_nil]
  · exact ⟨done, p, begun, rfl, ⟨rest, hbegun⟩⟩

/-- The packets `done` are written whole, and all of `p` but `rest`. -/
def Sending (out : π → List α) (ch : List α) (done : List π) (p : π) (rest : List α) : Prop :=
  ∃ begun, ch = done.flatMap out ++ begun ∧ begun ++ rest = out p

lemma sending_start (done : List π) (p : π) : Sending out (done.flatMap out) done p (out p) :=
  ⟨[], (List.append_nil _).symm, rfl⟩

lemma Sending.write {ch rest : List α} {done : List π} {p : π} {c : α}
    (h : Sending out ch done p (c :: rest)) : Sending out (ch ++ [c]) done p rest := by
  obtain ⟨begun, rfl, hbegun⟩ := h
  refine ⟨begun ++ [c], ?_, ?_⟩
  · rw [List.append_assoc]
  · rw [List.append_assoc, List.singleton_append, hbegun]

lemma Sending.finish {ch : List α} {done : List π} {p : π} (h : Sending out ch done p []) :
    ch = (done ++ [p]).flatMap out := by
  obtain ⟨begun, rfl, hbegun⟩ := h
  rw [List.append_nil] at hbegun
  rw [hbegun, List.flatMap_append, List.flatMap_singleton]

end EthoSlip.Lib
