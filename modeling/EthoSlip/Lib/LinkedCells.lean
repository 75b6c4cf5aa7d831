import Mathlib

/-!
# Linked cells

Cells that know the one behind them. The links are threaded when no two cells have the same one
behind them and every thread ends; threads that begin at different heads share no cell. A link is
set from the last cell of one thread to the head of another, or cut.
-/

namespace EthoSlip.Lib

variable {α : Type*} {next next' : α → Option α} {p : Option α} {l l' : List α} {a b t x : α}

/-- `l` are the cells from `p` on, up to one that has none behind it. -/
inductive Linked (next : α → Option α) : Option α → List α → Prop
  | nil : Linked next none []
  | cons {a : α} {l : List α} : Linked next (next a) l → Linked next (some a) (a :: l)

namespace Linked

lemma unique (h : Linked next p l) (h' : Linked next p l') : l = l' := by
  induction h generalizing l' with
  | nil =>
    cases h'
    rfl
  | cons _ ih =>
    cases h' with
    | cons h' => rw [ih h']

lemma eq_cons (h : Linked next (some a) l) : ∃ l', l = a :: l' ∧ Linked next (next a) l' := by
  cases h with
  | cons h => exact ⟨_, rfl, h⟩

lemma mem_head (h : Linked next (some a) l) : a ∈ l := by
  obtain ⟨l', rfl, -⟩ := h.eq_cons
  exact List.mem_cons_self ..

/-- The thread from one of the cells. -/
lemma split (h : Linked next p l) (ha : a ∈ l) :
    ∃ l₁ l₂, l = l₁ ++ a :: l₂ ∧ Linked next (next a) l₂ := by
  induction h with
  | nil => simp at ha
  | @cons b l h ih =>
    rcases List.mem_cons.mp ha with rfl | ha
    · exact ⟨[], l, rfl, h⟩
    · obtain ⟨l₁, l₂, rfl, h₂⟩ := ih ha
      exact ⟨b :: l₁, l₂, rfl, h₂⟩

lemma behind {l₁ l₂ : List α} (h : Linked next p (l₁ ++ a :: l₂)) : Linked next (next a) l₂ := by
  induction l₁ generalizing p with
  | nil =>
    cases h with
    | cons h => exact h
  | cons b l₁ ih =>
    cases h with
    | cons h => exact ih h

lemma nodup (h : Linked next p l) : l.Nodup := by
  induction h with
  | nil => exact List.nodup_nil
  | @cons a l h ih =>
    refine List.nodup_cons.mpr ⟨?_, ih⟩
    intro ha
    -- the thread from `a` would be shorter than itself
    obtain ⟨l₁, l₂, rfl, h₂⟩ := h.split ha
    have hlength := congrArg List.length (h.unique h₂)
    rw [List.length_append, List.length_cons] at hlength
    omega

/-- The first cell is the one with none in front of it. -/
lemma first_iff {l₁ l₂ : List α} (h : Linked next (some a) (l₁ ++ b :: l₂)) : b = a ↔ l₁ = [] := by
  obtain ⟨l, hl, -⟩ := h.eq_cons
  cases l₁ with
  | nil =>
    rw [List.nil_append, List.cons.injEq] at hl
    exact ⟨fun _ => rfl, fun _ => hl.1⟩
  | cons c l₁ =>
    have hnodup := h.nodup
    rw [List.cons_append, List.cons.injEq] at hl
    rw [List.cons_append, hl.1] at hnodup
    constructor
    · rintro rfl
      exact absurd (by simp) (List.nodup_cons.mp hnodup).1
    · exact fun hnil => absurd hnil (List.cons_ne_nil c l₁)

lemma next_mem (h : Linked next p l) (ha : a ∈ l) (hb : next a = some b) : b ∈ l := by
  obtain ⟨l₁, l₂, rfl, h₂⟩ := h.split ha
  rw [hb] at h₂
  exact List.mem_append_right _ (List.mem_cons_of_mem _ h₂.mem_head)

/-- A cell is the first one of its thread or behind another one. -/
lemma first_or_behind (h : Linked next p l) (ha : a ∈ l) : p = some a ∨ ∃ b ∈ l, next b = some a := by
  induction h with
  | nil => simp at ha
  | @cons b l h ih =>
    rcases List.mem_cons.mp ha with rfl | ha
    · exact .inl rfl
    · rcases ih ha with hb | ⟨c, hc, hca⟩
      · exact .inr ⟨b, List.mem_cons_self .., hb⟩
      · exact .inr ⟨c, List.mem_cons_of_mem _ hc, hca⟩

lemma exists_last (h : Linked next (some a) l) : ∃ x ∈ l, next x = none := by
  generalize hp : some a = p at h
  induction h generalizing a with
  | nil => cases hp
  | @cons b l h ih =>
    cases hb : next b with
    | none => exact ⟨b, List.mem_cons_self .., hb⟩
    | some c =>
      obtain ⟨x, hx, hlast⟩ := ih hb.symm
      exact ⟨x, List.mem_cons_of_mem _ hx, hlast⟩

lemma last_unique (h : Linked next p l) (ha : a ∈ l) (hb : b ∈ l) (hna : next a = none)
    (hnb : next b = none) : a = b := by
  induction h with
  | nil => simp at ha
  | @cons c l h ih =>
    have hend : ∀ d, d = c → next d = none → l = [] := by
      rintro d rfl hd
      rw [hd] at h
      cases h
      rfl
    rcases List.mem_cons.mp ha with hac | ha
    · have hnil := hend a hac hna
      rw [hnil] at hb
      rw [hac, List.mem_singleton.mp hb]
    · rcases List.mem_cons.mp hb with hbc | hb
      · rw [hend b hbc hnb] at ha
        simp at ha
      · exact ih ha hb

lemma congr (h : Linked next p l) (hagree : ∀ a ∈ l, next' a = next a) : Linked next' p l := by
  induction h with
  | nil => exact nil
  | @cons a l h ih =>
    apply cons
    rw [hagree a (List.mem_cons_self ..)]
    exact ih (fun b hb => hagree b (List.mem_cons_of_mem _ hb))

variable [DecidableEq α]

lemma update (h : Linked next p l) (hx : x ∉ l) (v : Option α) :
    Linked (Function.update next x v) p l := by
  apply h.congr
  intro a ha
  rw [Function.update_of_ne]
  rintro rfl
  exact hx ha

/-- The last cell is linked to another thread. -/
lemma link (h : Linked next p l) (hx : x ∈ l) (hlast : next x = none)
    (ht : Linked next (some t) l') (hx' : x ∉ l') :
    Linked (Function.update next x (some t)) p (l ++ l') := by
  induction h with
  | nil => simp at hx
  | @cons a l h ih =>
    apply cons
    by_cases hax : a = x
    · subst hax
      rw [hlast] at h
      cases h
      rw [Function.update_self]
      exact ht.update hx' _
    · rw [Function.update_of_ne hax]
      apply ih
      exact List.mem_of_ne_of_mem (Ne.symm hax) hx

/-- The thread is cut behind one of its cells. -/
lemma cut {l₁ l₂ : List α} (h : Linked next p (l₁ ++ x :: l₂)) :
    Linked (Function.update next x none) p (l₁ ++ [x]) := by
  induction l₁ generalizing p with
  | nil =>
    cases h
    apply cons
    rw [Function.update_self]
    exact nil
  | cons b l₁ ih =>
    have hnodup := h.nodup
    rw [List.cons_append, List.nodup_cons] at hnodup
    cases h with
    | cons h =>
      apply cons
      rw [Function.update_of_ne]
      · exact ih h
      · rintro rfl
        exact hnodup.1 (by simp)

end Linked

/-- No cell points to this one. -/
def IsHead (next : α → Option α) (a : α) : Prop := ∀ b, next b ≠ some a

instance [Fintype α] [DecidableEq α] (a : α) : Decidable (IsHead next a) :=
  inferInstanceAs (Decidable (∀ b, next b ≠ some a))

structure Threaded (next : α → Option α) : Prop where
  unshared : ∀ a b c, next a = some c → next b = some c → a = b
  ends : ∀ a, ∃ l, Linked next (some a) l

namespace Threaded

/-- Threads from different heads are disjoint. -/
theorem disjoint (h : Threaded next) (ha : IsHead next a) (hb : IsHead next b) (hab : a ≠ b)
    (hl : Linked next (some a) l) (hl' : Linked next (some b) l') : l.Disjoint l' := by
  have hnot : ∀ l₁ c l₂, l = l₁ ++ c :: l₂ → c ∉ l' := by
    intro l₁
    induction l₁ using List.reverseRecOn with
    | nil =>
      intro c l₂ hsplit hc
      obtain ⟨l'', hl'', -⟩ := hl.eq_cons
      rw [hl'', List.nil_append, List.cons.injEq] at hsplit
      rcases hl'.first_or_behind hc with hfirst | ⟨d, -, hd⟩
      · rw [Option.some.injEq] at hfirst
        exact hab (hsplit.1.trans hfirst.symm)
      · rw [← hsplit.1] at hd
        exact ha d hd
    | append_singleton l₁ d ih =>
      intro c l₂ hsplit hc
      rw [List.append_assoc, List.singleton_append] at hsplit
      rw [hsplit] at hl
      have hdc : next d = some c := by
        have hbehind := hl.behind
        cases hd : next d with
        | none =>
          rw [hd] at hbehind
          cases hbehind
        | some e =>
          rw [hd] at hbehind
          obtain ⟨l'', hl'', -⟩ := hbehind.eq_cons
          rw [List.cons.injEq] at hl''
          rw [hl''.1]
      rcases hl'.first_or_behind hc with hfirst | ⟨e, he, hec⟩
      · rw [Option.some.injEq] at hfirst
        rw [← hfirst] at hdc
        exact hb d hdc
      · rw [h.unshared e d c hec hdc] at he
        exact ih d (c :: l₂) hsplit he
  intro c hc hc'
  obtain ⟨l₁, l₂, hsplit, -⟩ := hl.split hc
  exact hnot l₁ c l₂ hsplit hc'

/-- A link from outside of a thread does not lead into it. -/
lemma not_mem_next (h : Threaded next) (ht : IsHead next t) (hl : Linked next (some t) l)
    (ha : a ∉ l) (hb : next a = some b) : b ∉ l := by
  intro hmem
  rcases hl.first_or_behind hmem with hfirst | ⟨c, hc, hcb⟩
  · rw [Option.some.injEq] at hfirst
    rw [← hfirst] at hb
    exact ht a hb
  · rw [h.unshared a c b hb hcb] at ha
    exact ha hc

variable [DecidableEq α]

lemma link (h : Threaded next) (hx : next x = none) (ht : IsHead next t)
    (hl : Linked next (some t) l) (hxl : x ∉ l) : Threaded (Function.update next x (some t)) where
  unshared := by
    have hother : ∀ b, b ≠ x → Function.update next x (some t) b = next b :=
      fun b hb => Function.update_of_ne hb _ _
    intro a b c ha hb
    by_cases hax : a = x
    · by_cases hbx : b = x
      · rw [hax, hbx]
      · rw [hax, Function.update_self, Option.some.injEq] at ha
        rw [hother b hbx, ← ha] at hb
        exact absurd hb (ht b)
    · rw [hother a hax] at ha
      by_cases hbx : b = x
      · rw [hbx, Function.update_self, Option.some.injEq] at hb
        rw [← hb] at ha
        exact absurd ha (ht a)
      · rw [hother b hbx] at hb
        exact h.unshared a b c ha hb
  ends := by
    intro a
    obtain ⟨la, hla⟩ := h.ends a
    by_cases hxa : x ∈ la
    · exact ⟨la ++ l, hla.link hxa hx hl hxl⟩
    · exact ⟨la, hla.update hxa _⟩

lemma cut (h : Threaded next) (x : α) : Threaded (Function.update next x none) where
  unshared := by
    have hsome : ∀ b c, Function.update next x none b = some c → next b = some c := by
      intro b c hb
      by_cases hbx : b = x
      · rw [hbx, Function.update_self] at hb
        cases hb
      · rw [Function.update_of_ne hbx] at hb
        exact hb
    intro a b c ha hb
    exact h.unshared a b c (hsome a c ha) (hsome b c hb)
  ends := by
    intro a
    obtain ⟨la, hla⟩ := h.ends a
    by_cases hxa : x ∈ la
    · obtain ⟨l₁, l₂, rfl, -⟩ := hla.split hxa
      exact ⟨l₁ ++ [x], hla.cut⟩
    · exact ⟨la, hla.update hxa _⟩

end Threaded

/-! ### Counted references -/

section Counted

variable [Fintype α] [DecidableEq α] {ref : α → ℕ} {held : Multiset α}

/-- The number of cells that point to this one. -/
def indegree (next : α → Option α) (a : α) : ℕ := (Finset.univ.filter (next · = some a)).card

lemma indegree_pos (h : next b = some a) : 0 < indegree next a :=
  Finset.card_pos.mpr ⟨b, Finset.mem_filter.mpr ⟨Finset.mem_univ b, h⟩⟩

lemma exists_of_indegree_pos (h : 0 < indegree next a) : ∃ b, next b = some a := by
  obtain ⟨b, hb⟩ := Finset.card_pos.mp h
  exact ⟨b, (Finset.mem_filter.mp hb).2⟩

lemma isHead_of_indegree (h : indegree next a = 0) : IsHead next a := by
  intro b hb
  have hpos := indegree_pos hb
  omega

lemma Threaded.indegree_le_one (h : Threaded next) (a : α) : indegree next a ≤ 1 := by
  apply Finset.card_le_one.mpr
  intro b hb c hc
  exact h.unshared b c a (Finset.mem_filter.mp hb).2 (Finset.mem_filter.mp hc).2

lemma indegree_update (hx : next x = none) (t a : α) :
    indegree (Function.update next x (some t)) a = indegree next a + if a = t then 1 else 0 := by
  have hset : Finset.univ.filter (Function.update next x (some t) · = some a) =
      Finset.univ.filter (next · = some a) ∪ if a = t then {x} else ∅ := by
    ext b
    by_cases hbx : b = x
    · subst hbx
      rw [Finset.mem_union, Finset.mem_filter, Finset.mem_filter, Function.update_self, hx]
      by_cases hat : a = t
      · simp [hat]
      · simp [hat, Ne.symm hat]
    · rw [Finset.mem_union, Finset.mem_filter, Finset.mem_filter, Function.update_of_ne hbx]
      by_cases hat : a = t
      · simp [hat, hbx]
      · simp [hat]
  unfold indegree
  rw [hset, Finset.card_union_of_disjoint]
  · by_cases hat : a = t
    · rw [if_pos hat, if_pos hat, Finset.card_singleton]
    · rw [if_neg hat, if_neg hat, Finset.card_empty]
  · by_cases hat : a = t
    · rw [if_pos hat, Finset.disjoint_singleton_right, Finset.mem_filter, hx]
      simp
    · rw [if_neg hat]
      exact Finset.disjoint_empty_right _

/-- Every reference to a cell is counted: those that are held, and the links. -/
def Counted (next : α → Option α) (ref : α → ℕ) (held : Multiset α) : Prop :=
  ∀ a, ref a = held.count a + indegree next a

namespace Counted

lemma share (h : Counted next ref held) (x : α) :
    Counted next (Function.update ref x (ref x + 1)) (x ::ₘ held) := by
  intro a
  by_cases hax : a = x
  · subst hax
    rw [Function.update_self, Multiset.count_cons_self, h a]
    omega
  · rw [Function.update_of_ne hax, Multiset.count_cons_of_ne hax, h a]

lemma release (h : Counted next ref (x ::ₘ held)) :
    0 < ref x ∧ Counted next (Function.update ref x (ref x - 1)) held := by
  have hx := h x
  rw [Multiset.count_cons_self] at hx
  refine ⟨by omega, ?_⟩
  intro a
  by_cases hax : a = x
  · rw [hax, Function.update_self]
    omega
  · rw [Function.update_of_ne hax, h a, Multiset.count_cons_of_ne hax]

/-- A held reference becomes a link. -/
lemma link (h : Counted next ref (t ::ₘ held)) (hx : next x = none) :
    Counted (Function.update next x (some t)) ref held := by
  intro a
  rw [indegree_update hx, h a]
  by_cases hat : a = t
  · rw [hat, Multiset.count_cons_self, if_pos rfl]
    omega
  · rw [Multiset.count_cons_of_ne hat, if_neg hat, Nat.add_zero]

/-- A link becomes a held reference. -/
lemma cut (h : Counted next ref held) (hx : next x = some t) :
    Counted (Function.update next x none) ref (t ::ₘ held) := by
  have hnext : Function.update (Function.update next x none) x (some t) = next := by
    rw [Function.update_idem, ← hx, Function.update_eq_self]
  intro a
  have hdegree := indegree_update (Function.update_self x none next) t a
  rw [hnext] at hdegree
  rw [h a, hdegree]
  by_cases hat : a = t
  · rw [hat, Multiset.count_cons_self, if_pos rfl]
    omega
  · rw [Multiset.count_cons_of_ne hat, if_neg hat, Nat.add_zero]

/-- A cell that only its holder refers to is the head of its thread. -/
lemma sole (h : Counted next ref (x ::ₘ held)) (hx : ref x = 1) : IsHead next x ∧ x ∉ held := by
  have hcount := h x
  rw [Multiset.count_cons_self, hx] at hcount
  constructor
  · apply isHead_of_indegree
    omega
  · rw [← Multiset.count_eq_zero]
    omega

lemma held_or_behind (h : Counted next ref held) (hdead : ∀ a, ref a = 0 → next a = none)
    (ha : 0 < ref a) : a ∈ held ∨ ∃ b, next b = some a ∧ 0 < ref b := by
  by_cases hheld : a ∈ held
  · exact .inl hheld
  · have hcount := h a
    rw [Multiset.count_eq_zero.mpr hheld, Nat.zero_add] at hcount
    rw [hcount] at ha
    obtain ⟨b, hb⟩ := exists_of_indegree_pos ha
    refine .inr ⟨b, hb, Nat.pos_of_ne_zero ?_⟩
    intro hzero
    rw [hdead b hzero] at hb
    cases hb

lemma live_of_mem (h : Counted next ref held) (hb : b ∈ held) (hl : Linked next (some b) l)
    (ha : a ∈ l) : 0 < ref a := by
  rw [h a]
  rcases hl.first_or_behind ha with hfirst | ⟨c, -, hc⟩
  · rw [Option.some.injEq] at hfirst
    rw [← hfirst]
    exact Nat.add_pos_left (Multiset.count_pos.mpr hb) _
  · exact Nat.add_pos_right _ (indegree_pos hc)

theorem live_iff (h : Counted next ref held) (hthreaded : Threaded next)
    (hdead : ∀ a, ref a = 0 → next a = none) (a : α) :
    0 < ref a ↔ ∃ b ∈ held, ∃ l, Linked next (some b) l ∧ a ∈ l := by
  constructor
  · intro hpos
    obtain ⟨l, hl⟩ := hthreaded.ends a
    -- the threads through the cells before `a` become longer, and none has a cell twice
    induction hn : Fintype.card α - l.length generalizing a l with
    | zero =>
      rcases h.held_or_behind hdead hpos with hheld | ⟨b, hb, -⟩
      · exact ⟨a, hheld, l, hl, hl.mem_head⟩
      · have hlonger : Linked next (some b) (b :: l) := .cons (hb ▸ hl)
        have hcard := hlonger.nodup.length_le_card
        rw [List.length_cons] at hcard
        omega
    | succ n ih =>
      rcases h.held_or_behind hdead hpos with hheld | ⟨b, hb, hlive⟩
      · exact ⟨a, hheld, l, hl, hl.mem_head⟩
      · obtain ⟨c, hc, lc, hlc, hblc⟩ := ih b hlive (b :: l) (.cons (hb ▸ hl))
          (by rw [List.length_cons]; omega)
        exact ⟨c, hc, lc, hlc, hlc.next_mem hblc hb⟩
  · rintro ⟨b, hb, l, hl, ha⟩
    exact h.live_of_mem hb hl ha

end Counted

end Counted

end EthoSlip.Lib
