import EthoSlip.Lib.LinkedCells
import EthoSlip.Lib.Run
import EthoSlip.Model.MempThreads

/-!
# Calls that overlap

As long as no call to `memp.c` begins while the other thread is in one, the list of the free elements
is the one that the model of `pbuf.c` keeps, and each element is free or belongs to one thread. Two
allocations that overlap give both threads the same element, whatever was before.
-/

namespace EthoSlip
open Lib

namespace MempThreads

variable {n : ℕ} {s s' : MempThreads n} {t : Thread} {l : List (Fin n)} {p q a : Fin n}

def other : Thread → Thread
  | .slip => .main
  | .main => .slip

lemma other_ne (t : Thread) : other t ≠ t := by cases t <;> decide

/-- The element that a thread is giving back. -/
def pending : MempPoint n → List (Fin n)
  | .idle => []
  | .mallocLoaded _ => []
  | .mallocNext _ _ => []
  | .freeLoaded memp _ => [memp]
  | .freeStored memp => [memp]

def holdings (s : MempThreads n) (t : Thread) : List (Fin n) := s.owned t ++ pending (s.point t)

/-- What a thread has loaded is still so. -/
def Current (tab : Option (Fin n)) (next : Fin n → Option (Fin n)) : MempPoint n → Prop
  | .idle => True
  | .mallocLoaded memp => memp = tab
  | .mallocNext memp v => tab = some memp ∧ v = next memp
  | .freeLoaded _ v => v = tab
  | .freeStored memp => next memp = tab

/-- `l` are the free elements; no two calls overlap. -/
structure Listed (s : MempThreads n) (l : List (Fin n)) : Prop where
  linked : Linked s.next s.tab l
  once : ∀ a, l.count a + (s.holdings .slip).count a + (s.holdings .main).count a = 1
  quiet : ∀ t, s.point t = .idle ∨ s.point (other t) = .idle
  current : ∀ t, Current s.tab s.next (s.point t)

/-- The thread `t` has gone on. -/
def moved (s : MempThreads n) (t : Thread) (x : MempPoint n) (owned : List (Fin n))
    (next : Fin n → Option (Fin n)) (tab : Option (Fin n)) : MempThreads n :=
  ⟨tab, next, Function.update s.point t x, Function.update s.owned t owned⟩

lemma setPoint_eq (s : MempThreads n) (t : Thread) (x : MempPoint n) :
    s.setPoint t x = s.moved t x (s.owned t) s.next s.tab := by
  rw [moved, Function.update_eq_self]
  rfl

lemma point_moved (x : MempPoint n) (owned : List (Fin n)) (next : Fin n → Option (Fin n))
    (tab : Option (Fin n)) : (s.moved t x owned next tab).point t = x := Function.update_self ..

lemma point_moved_other (x : MempPoint n) (owned : List (Fin n)) (next : Fin n → Option (Fin n))
    (tab : Option (Fin n)) : (s.moved t x owned next tab).point (other t) = s.point (other t) :=
  Function.update_of_ne (other_ne t) _ _

lemma holdings_moved (x : MempPoint n) (owned : List (Fin n)) (next : Fin n → Option (Fin n))
    (tab : Option (Fin n)) : (s.moved t x owned next tab).holdings t = owned ++ pending x := by
  have howned : (s.moved t x owned next tab).owned t = owned := Function.update_self ..
  rw [holdings, point_moved, howned]

lemma holdings_moved_other (x : MempPoint n) (owned : List (Fin n))
    (next : Fin n → Option (Fin n)) (tab : Option (Fin n)) :
    (s.moved t x owned next tab).holdings (other t) = s.holdings (other t) := by
  have howned : (s.moved t x owned next tab).owned (other t) = s.owned (other t) :=
    Function.update_of_ne (other_ne t) _ _
  rw [holdings, point_moved_other, howned, holdings]

/-- What holds of a thread and of the other one holds of both. -/
lemma forall_thread {P : Thread → Prop} (t : Thread) (ht : P t) (hother : P (other t)) :
    ∀ t', P t' := by
  intro t'
  cases t <;> cases t' <;> assumption

lemma count_other (s : MempThreads n) (t : Thread) (a : Fin n) :
    (s.holdings t).count a + (s.holdings (other t)).count a =
      (s.holdings .slip).count a + (s.holdings .main).count a := by
  cases t with
  | slip => rfl
  | main => exact Nat.add_comm _ _

namespace Listed

lemma count (h : Listed s l) (t : Thread) (a : Fin n) :
    l.count a + (s.holdings t).count a + (s.holdings (other t)).count a = 1 := by
  have honce := h.once a
  have hcount := s.count_other t a
  omega

/-- The elements are where they were, but for what the thread itself has moved. -/
lemma moved (h : Listed s l) {l' owned : List (Fin n)} {x : MempPoint n}
    {next : Fin n → Option (Fin n)} {tab : Option (Fin n)}
    (hother : s.point (other t) = .idle) (hlinked : Linked next tab l')
    (hcount : ∀ a, l'.count a + (owned ++ pending x).count a = l.count a + (s.holdings t).count a)
    (hcurrent : Current tab next x) : Listed (s.moved t x owned next tab) l' where
  linked := hlinked
  once a := by
    have hone := h.count t a
    have hmoved := hcount a
    rw [← holdings_moved (s := s) (t := t) x owned next tab] at hmoved
    rw [← holdings_moved_other (s := s) (t := t) x owned next tab] at hone
    have hboth := (s.moved t x owned next tab).count_other t a
    omega
  quiet := by
    have hidle : (s.moved t x owned next tab).point (other t) = .idle := by
      rw [point_moved_other, hother]
    apply forall_thread (P := fun t' => (s.moved t x owned next tab).point t' = .idle ∨
      (s.moved t x owned next tab).point (other t') = .idle) t
    · exact .inr hidle
    · exact .inl hidle
  current := by
    apply forall_thread (P := fun t' => Current tab next ((s.moved t x owned next tab).point t')) t
    · rw [point_moved]
      exact hcurrent
    · rw [point_moved_other, hother]
      trivial

end Listed

/-- A call begins while the other thread is in none, and a thread frees and writes what it owns. -/
def Allowed (s : MempThreads n) : MempStep n → Prop
  | .malloc t => s.point t = .idle ∧ s.point (other t) = .idle
  | .free t p => s.point t = .idle ∧ s.point (other t) = .idle ∧ p ∈ s.owned t
  | .write t p _ => s.point t = .idle ∧ p ∈ s.owned t
  | .advance t => s.point t ≠ .idle

instance (s : MempThreads n) : (a : MempStep n) → Decidable (Allowed s a)
  | .malloc _ => inferInstanceAs (Decidable (_ ∧ _))
  | .free _ _ => inferInstanceAs (Decidable (_ ∧ _ ∧ _))
  | .write _ _ _ => inferInstanceAs (Decidable (_ ∧ _))
  | .advance _ => inferInstanceAs (Decidable (_ ≠ _))

variable {m : PbufPool n}

lemma other_other (t : Thread) : other (other t) = t := by cases t <;> rfl

lemma eq_or_other (t t' : Thread) : t = t' ∨ other t = t' := by
  cases t <;> cases t' <;> decide

def mallocSteps (t : Thread) : List (MempStep n) := [.malloc t, .advance t, .advance t]

/-- The thread has made the first `k` accesses of its allocation of `q`. -/
def Reached (s : MempThreads n) (q : Fin n) (t : Thread) : ℕ → Prop
  | 0 => s.point t = .idle
  | 1 => s.point t = .mallocLoaded (some q)
  | 2 => ∃ v, s.point t = .mallocNext q v
  | _ => q ∈ s.owned t

/-- Where both threads are, with the steps that are left. -/
structure Overlaps (s : MempThreads n) (q : Fin n) (k : Thread → ℕ) (steps : List (MempStep n)) :
    Prop where
  calls : ∀ t, steps.filter (fun a => a.thread = t) = (mallocSteps t).drop (k t)
  loads : ∀ t, k t = 0 →
    (steps.takeWhile (fun a => a ≠ .malloc t)).count (.advance (other t)) + (k (other t) - 1) ≤ 1
  reached : ∀ t, Reached s q t (k t)
  head : (∀ t, k t ≤ 2) → s.tab = some q

lemma reached_other {x : MempPoint n} {owned : List (Fin n)} {next : Fin n → Option (Fin n)}
    {tab : Option (Fin n)} {k : ℕ} (h : Reached s q (other t) k) :
    Reached (s.moved t x owned next tab) q (other t) k := by
  have howned : (s.moved t x owned next tab).owned (other t) = s.owned (other t) :=
    Function.update_of_ne (other_ne t) _ _
  match k with
  | 0 => exact (point_moved_other ..).trans h
  | 1 => exact (point_moved_other ..).trans h
  | 2 =>
    obtain ⟨v, hv⟩ := h
    exact ⟨v, (point_moved_other ..).trans hv⟩
  | k + 3 =>
    change q ∈ (s.moved t x owned next tab).owned (other t)
    rw [howned]
    exact h

/-- The next access of one thread, after which the other one is where it was. -/
lemma Overlaps.moved {k : Thread → ℕ} {a : MempStep n} {steps : List (MempStep n)}
    (h : Overlaps s q k (a :: steps)) (x : MempPoint n) (owned : List (Fin n))
    (tab : Option (Fin n)) (ha : a = .advance a.thread ↔ k a.thread ≠ 0)
    (hreached : Reached (s.moved a.thread x owned s.next tab) q a.thread (k a.thread + 1))
    (htab : k a.thread < 2 → tab = s.tab) :
    Overlaps (s.moved a.thread x owned s.next tab) q
      (Function.update k a.thread (k a.thread + 1)) steps := by
  obtain ⟨t, ht⟩ : ∃ t, t = a.thread := ⟨_, rfl⟩
  rw [← ht] at ha hreached htab ⊢
  have hself : Function.update k t (k t + 1) t = k t + 1 := Function.update_self ..
  have hother : Function.update k t (k t + 1) (other t) = k (other t) :=
    Function.update_of_ne (other_ne t) _ _
  constructor
  · intro t'
    rcases eq_or_other t t' with rfl | rfl
    · have hcalls := congrArg List.tail (h.calls t)
      rw [List.filter_cons_of_pos (by simp [ht]), List.tail_cons, List.tail_drop] at hcalls
      rw [hself, hcalls]
    · have hcalls := h.calls (other t)
      rw [List.filter_cons_of_neg (by simpa [ht] using (other_ne t).symm)] at hcalls
      rw [hother, hcalls]
  · intro t'
    rcases eq_or_other t t' with rfl | rfl
    · intro hzero
      rw [hself] at hzero
      cases hzero
    · intro hzero
      rw [hother] at hzero
      have hloads := h.loads (other t) hzero
      have hne : a ≠ .malloc (other t) := by
        intro heq
        rw [heq] at ht
        exact other_ne t ht.symm
      rw [List.takeWhile_cons_of_pos (by simpa using hne), other_other, List.count_cons] at hloads
      rw [other_other, hself]
      by_cases hadvance : a = .advance t
      · have hpos := ha.mp hadvance
        rw [if_pos (by simpa using hadvance)] at hloads
        omega
      · have hk : k t = 0 := by
          by_contra hk
          exact hadvance (ha.mpr hk)
        rw [hk, Nat.zero_add]
        omega
  · intro t'
    rcases eq_or_other t t' with rfl | rfl
    · rw [hself]
      exact hreached
    · rw [hother]
      exact reached_other (h.reached (other t))
  · intro hle
    have hk := hle t
    rw [hself] at hk
    rw [← h.head]
    · exact htab (by omega)
    · intro t'
      rcases eq_or_other t t' with rfl | rfl
      · omega
      · rw [← hother]
        exact hle (other t)

/-- Each access is the next one of its thread, and the allocation gets the head that was loaded. -/
lemma Overlaps.next {k : Thread → ℕ} {a : MempStep n} {steps : List (MempStep n)}
    (h : Overlaps s q k (a :: steps)) :
    ∃ s' r, s.step a = some (s', r) ∧
      Overlaps s' q (Function.update k a.thread (k a.thread + 1)) steps := by
  have hcalls := h.calls a.thread
  have hreached := h.reached a.thread
  have hhead := h.head
  have hloads := h.loads
  rw [List.filter_cons_of_pos (by simp)] at hcalls
  obtain ⟨t, ht⟩ : ∃ t, t = a.thread := ⟨_, rfl⟩
  have hmoved := h.moved
  rw [← ht] at hcalls hreached hmoved ⊢
  rcases hk : k t with _ | _ | _ | j
  · -- the head is loaded, and nobody has stored a new one
    rw [hk] at hcalls hreached
    have ha : a = .malloc t := (List.cons.inj hcalls).1
    have hless : k (other t) ≤ 2 := by
      have hbound := h.loads t hk
      omega
    have htab : s.tab = some q := by
      apply h.head
      intro t'
      rcases eq_or_other t t' with rfl | rfl
      · omega
      · exact hless
    have hidle : s.point t = .idle := hreached
    refine ⟨s.moved t (.mallocLoaded s.tab) (s.owned t) s.next s.tab, .nothing, ?_, ?_⟩
    · rw [ha, step, if_pos hidle, setPoint_eq]
    · rw [← hk]
      apply hmoved
      · rw [ha, hk]
        simp
      · rw [hk]
        exact (point_moved ..).trans (congrArg MempPoint.mallocLoaded htab)
      · exact fun _ => rfl
  · rw [hk] at hcalls hreached
    have ha : a = .advance t := (List.cons.inj hcalls).1
    have hpoint : s.point t = .mallocLoaded (some q) := hreached
    refine ⟨s.moved t (.mallocNext q (s.next q)) (s.owned t) s.next s.tab, .nothing, ?_, ?_⟩
    · rw [ha, step, advance, hpoint]
      simp only [setPoint_eq]
    · rw [← hk]
      apply hmoved
      · rw [ha, hk]
        simp
      · rw [hk]
        exact ⟨s.next q, point_moved ..⟩
      · exact fun _ => rfl
  · rw [hk] at hcalls hreached
    have ha : a = .advance t := (List.cons.inj hcalls).1
    obtain ⟨v, hpoint⟩ := hreached
    refine ⟨s.moved t .idle (q :: s.owned t) s.next v, .got (some q), ?_, ?_⟩
    · rw [ha, step, advance, hpoint]
      rfl
    · rw [← hk]
      apply hmoved
      · rw [ha, hk]
        simp
      · rw [hk]
        have howned : (s.moved t .idle (q :: s.owned t) s.next v).owned t = q :: s.owned t :=
          Function.update_self ..
        change q ∈ (s.moved t .idle (q :: s.owned t) s.next v).owned t
        rw [howned]
        exact List.mem_cons_self ..
      · intro hless
        omega
  · rw [hk, List.drop_of_length_le (by simp [mallocSteps])] at hcalls
    cases hcalls

end MempThreads

end EthoSlip
