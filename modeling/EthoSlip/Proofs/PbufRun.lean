import EthoSlip.Lib.Run
import EthoSlip.Model.PbufClients
import EthoSlip.Proofs.PbufContents

/-!
# Runs of calls to the pool

Callers that keep the contract of `pbuf.c` never run into an assertion, a free element or a loop
without end. After any run of such calls the elements in use are those that a held reference leads
to, their counts are the references to them, and `tot_len` is the real length of what is left of a
chain.
-/

namespace EthoSlip
open Lib

namespace PbufPool

variable {n : ℕ} {m m' : PbufPool n} {held held' : Multiset (Fin n)} {a p q t : Fin n}
  {l : List (Fin n)} {c c' tail : PbufCell n}

def walk (m : PbufPool n) : ℕ → Option (Fin n) → List (Fin n)
  | _, none => []
  | 0, some _ => []
  | k + 1, some p => p :: walk m k (m.nextOf p)

def chainAt (m : PbufPool n) (p : Fin n) : List (Fin n) := m.walk n (some p)

lemma walk_eq {p : Option (Fin n)} (hl : Linked m.nextOf p l) {k : ℕ} (hk : l.length ≤ k) :
    m.walk k p = l := by
  induction hl generalizing k with
  | nil => rw [walk]
  | @cons a l hl ih =>
    obtain ⟨k, rfl⟩ : ∃ j, k = j + 1 := Nat.exists_eq_succ_of_ne_zero (by
      rw [List.length_cons] at hk
      omega)
    rw [walk, ih (Nat.le_of_succ_le_succ hk)]

lemma chainAt_eq (hl : Linked m.nextOf (some p) l) : m.chainAt p = l :=
  walk_eq hl (Owned.thread_length_le hl)

lemma Owned.chainAt (h : m.Owned held) (p : Fin n) : Linked m.nextOf (some p) (m.chainAt p) := by
  obtain ⟨l, hl⟩ := h.exists_thread (some p)
  rw [chainAt_eq hl]
  exact hl

def Unwrapped (m : PbufPool n) : Prop := ∀ a c, m.cell a = some c → c.len ≤ c.totLen

lemma Sound.toNat_totOf (h : m.Sound held) (hu : m.Unwrapped) {p : Option (Fin n)}
    (hl : Linked m.nextOf p l) : (m.totOf p).toNat = m.size l := by
  induction hl with
  | nil => rfl
  | @cons a l hl ih =>
    cases ha : m.cell a with
    | none =>
      rw [nextOf_free ha] at hl
      cases hl
      rw [size_cons, size_nil, totOf, lenOf, ha]
      rfl
    | some c =>
      have hle := UInt16.le_iff_toNat_le.mp (hu a c ha)
      have htotal := congrArg UInt16.toNat (h.totals a c ha)
      have hrest := (m.totOf c.next).toNat_lt
      rw [nextOf_eq ha] at ih
      rw [UInt16.toNat_add] at htotal
      rw [totOf_some ha, size_cons, lenOf_eq ha, ← ih]
      omega

lemma Sound.toNat_totLen (h : m.Sound held) (hu : m.Unwrapped) (hp : m.cell p = some c)
    (hl : Linked m.nextOf (some p) l) : c.totLen.toNat = m.size l := by
  rw [← h.toNat_totOf hu hl, totOf_some hp]

/-- A chain whose real length is a `u16_t` has no `tot_len` that has overflowed. -/
lemma Sound.len_le_totLen (h : m.Sound held) (hl : Linked m.nextOf (some p) l)
    (hlive : ∀ a ∈ l, ∃ c, m.cell a = some c) (hsize : m.size l < 2 ^ 16) (ha : a ∈ l)
    (hc : m.cell a = some c) : c.len ≤ c.totLen := by
  obtain ⟨l₁, l₂, rfl, hrest⟩ := hl.split ha
  have hbehind := hl.behind
  rw [nextOf_eq hc] at hbehind
  have htotal := h.totals a c hc
  rw [h.totOf_eq hbehind (fun b hb => hlive b (by simp [hb]))] at htotal
  have hnat := congrArg UInt16.toNat htotal
  rw [size_append, size_cons, lenOf_eq hc] at hsize
  rw [UInt16.toNat_add, UInt16.toNat_ofNat', Nat.mod_eq_of_lt (by omega),
    Nat.mod_eq_of_lt (by omega)] at hnat
  rw [UInt16.le_iff_toNat_le]
  omega

namespace Unwrapped

lemma recounted (h : m.Unwrapped) (hrecounted : Recounted m m' l) : m'.Unwrapped := by
  intro a c' ha
  obtain ⟨c, hc, hc'⟩ := hrecounted.cell a c' ha
  rw [hc']
  exact h a c hc

lemma set (h : m.Unwrapped) (hc' : c'.len ≤ c'.totLen) : (m.set p c').Unwrapped := by
  intro a d ha
  by_cases hap : a = p
  · rw [hap, cell_set, Option.some.injEq] at ha
    rw [← ha]
    exact hc'
  · rw [cell_set_of_ne hap] at ha
    exact h a d ha

/-- The elements outside a chain are as they were, and the chain fits. -/
lemma of_chain (h : m.Unwrapped) (hsound : m'.Sound held') (hl : Linked m'.nextOf (some p) l)
    (hlive : ∀ a ∈ l, ∃ c, m'.cell a = some c) (hsize : m'.size l < 2 ^ 16)
    (houtside : ∀ a ∉ l, m'.cell a = m.cell a) : m'.Unwrapped := by
  intro a c ha
  by_cases hal : a ∈ l
  · exact hsound.len_le_totLen hl hlive hsize hal ha
  · rw [houtside a hal] at ha
    exact h a c ha

end Unwrapped

lemma lenOf_mapCells {f : PbufCell n → PbufCell n} (hf : ∀ c, (f c).len = c.len) (a : Fin n) :
    (m.mapCells l f).lenOf a = m.lenOf a := by
  by_cases ha : a ∈ l
  · rw [lenOf, lenOf, cell_mapCells_of_mem ha, Option.map_map]
    congr 2
    funext c
    rw [Function.comp_apply, hf]
  · rw [lenOf, lenOf, cell_mapCells_of_notMem ha]

lemma exists_cell_mapCells {f : PbufCell n → PbufCell n} (h : ∃ c, m.cell a = some c) :
    ∃ c, (m.mapCells l f).cell a = some c := by
  apply Option.ne_none_iff_exists'.mp
  rw [Ne, cell_mapCells_eq_none]
  exact Option.ne_none_iff_exists'.mpr h

/-- A head that is live is held by a client. -/
lemma Owned.mem_of_isHead (h : m.Owned held) (hp : m.cell p = some c) (hhead : IsHead m.nextOf p) :
    p ∈ held := by
  have hpos : 0 < m.refOf p := by
    rw [refOf_eq hp]
    apply Nat.pos_of_ne_zero
    intro hzero
    exact h.ref_ne_zero hp (UInt8.toNat_inj.mp hzero)
  have hdead : ∀ a, m.refOf a = 0 → m.nextOf a = none := fun a ha => nextOf_free (h.live a ha)
  rcases h.counted.held_or_behind hdead hpos with hheld | ⟨b, hb, -⟩
  · exact hheld
  · exact absurd hb (hhead b)

lemma Sound.cat_unwrapped (h : m.Sound (t ::ₘ held)) (hu : m.Unwrapped) (hp : m.cell p = some c)
    (hhead : IsHead m.nextOf p) (ht : m.cell t = some tail) (hthead : IsHead m.nextOf t)
    (hpt : p ≠ t) (hroom : c.totLen.toNat + tail.totLen.toNat < 2 ^ 16)
    (hl : Linked m.nextOf (some p) l) :
    (m.mapCells l (catCell tail.totLen t)).Unwrapped := by
  obtain ⟨lt, hlt⟩ := h.threaded.ends t
  obtain ⟨-, hsound, hthread⟩ := h.cat hp hhead ht hthead hpt hl hlt
  apply hu.of_chain hsound hthread
  · intro a ha
    apply exists_cell_mapCells
    rcases List.mem_append.mp ha with hal | halt
    · exact h.toOwned.thread_live hl hp hal
    · exact h.toOwned.thread_live hlt ht halt
  · have hlens := lenOf_mapCells (m := m) (l := l) (f := catCell tail.totLen t) (fun _ => rfl)
    rw [size_congr (fun a _ => hlens a), size_append, ← h.toNat_totLen hu hp hl,
      ← h.toNat_totLen hu ht hlt]
    exact hroom
  · intro a ha
    rw [List.mem_append, not_or] at ha
    exact cell_mapCells_of_notMem ha.1

lemma thread_shrunk {l₁ l₂ : List (Fin n)} (hl : Linked m.nextOf (some p) (l₁ ++ q :: l₂))
    (shrink rem : UInt16) :
    Linked (Sound.shrunk m l₁ q c shrink rem).nextOf (some p) (l₁ ++ [q]) := by
  rw [Sound.shrunk, nextOf_set, Sound.nextOf_shrinkCell]
  exact hl.cut

lemma size_shrunk {l₁ : List (Fin n)} (hq : q ∉ l₁) (shrink rem : UInt16) :
    (Sound.shrunk m l₁ q c shrink rem).size (l₁ ++ [q]) = m.size l₁ + rem.toNat := by
  have hlens : ∀ a ∈ l₁, (Sound.shrunk m l₁ q c shrink rem).lenOf a = m.lenOf a := by
    intro a ha
    have haq : a ≠ q := by
      rintro rfl
      exact hq ha
    rw [lenOf, Sound.shrunk, cell_set_of_ne haq]
    exact lenOf_mapCells (f := shrinkCell shrink) (fun _ => rfl) a
  rw [size_append, size_congr hlens, size_cons, size_nil, Nat.add_zero, Sound.shrunk,
    lenOf_eq (cell_set _ _ _)]

lemma Sound.shrunk_unwrapped (h : m.Sound held) (hu : m.Unwrapped) (hp : m.cell p = some c')
    (hhead : IsHead m.nextOf p) {l₁ l₂ : List (Fin n)}
    (hl : Linked m.nextOf (some p) (l₁ ++ q :: l₂)) (hq : m.cell q = some c) {newLen rem : UInt16}
    (hrem : rem ≤ c.len) (hsplit : newLen.toNat = m.size l₁ + rem.toNat) :
    (shrunk m l₁ q c (c'.totLen - newLen) rem).Unwrapped := by
  have hql : q ∉ l₁ := by
    intro hmem
    exact (List.nodup_append.mp hl.nodup).2.2 q hmem q (List.mem_cons_self ..) rfl
  apply hu.of_chain (h.shrunk_sound hp hhead hl hq hrem hsplit) (thread_shrunk hl _ _)
  · intro a ha
    by_cases haq : a = q
    · rw [haq]
      exact ⟨_, cell_set _ _ _⟩
    · rw [shrunk, cell_set_of_ne haq]
      apply exists_cell_mapCells
      apply h.toOwned.thread_live hl hp
      apply List.mem_append_left
      simpa [haq] using ha
  · rw [size_shrunk hql, ← hsplit]
    exact newLen.toNat_lt
  · intro a ha
    rw [List.mem_append, List.mem_singleton, not_or] at ha
    rw [shrunk, cell_set_of_ne ha.2, cell_mapCells_of_notMem ha.1]

lemma hideCell_len_le {d : ℕ} (h : c.len ≤ c.totLen) (hd : d ≤ c.len.toNat) :
    (hideCell d c).len ≤ (hideCell d c).totLen := by
  have hlt := c.len.toNat_lt
  rw [UInt16.le_iff_toNat_le] at h
  have hnat : (UInt16.ofNat d).toNat = d := UInt16.toNat_ofNat_of_lt' (lt_of_le_of_lt hd hlt)
  change c.len - UInt16.ofNat d ≤ c.totLen - UInt16.ofNat d
  rw [UInt16.le_iff_toNat_le, UInt16.toNat_sub_of_le, UInt16.toNat_sub_of_le, hnat]
  · omega
  · rw [UInt16.le_iff_toNat_le, hnat]
    omega
  · rw [UInt16.le_iff_toNat_le, hnat]
    exact hd

lemma revealCell_len_le {d : ℕ} (h : c.len ≤ c.totLen) (hd : d + c.totLen.toNat < 2 ^ 16) :
    (revealCell d c).len ≤ (revealCell d c).totLen := by
  rw [UInt16.le_iff_toNat_le] at h
  have hnat : (UInt16.ofNat d).toNat = d := UInt16.toNat_ofNat_of_lt' (by
    change d < 65536
    omega)
  change c.len + UInt16.ofNat d ≤ c.totLen + UInt16.ofNat d
  rw [UInt16.le_iff_toNat_le, UInt16.toNat_add, UInt16.toNat_add, hnat]
  omega

end PbufPool

/-! ### The contract -/

namespace PbufClients

variable {n : ℕ} {s s' : PbufClients n} {op : PbufOp n}

/-- `p` is the first `pbuf` of a chain. -/
def Head (m : PbufPool n) (p : Fin n) : Prop := (m.cell p).isSome ∧ IsHead m.nextOf p

/-- Two chains, of which the lengths add up to a `u16_t`. -/
def Joinable (m : PbufPool n) (h t : Fin n) : Prop :=
  Head m h ∧ Head m t ∧ h ≠ t ∧ (m.totOf (some h)).toNat + (m.totOf (some t)).toNat < 2 ^ 16

/-- What `pbuf.c` asks of its callers. -/
def Allowed (s : PbufClients n) : PbufOp n → Prop
  | .alloc _ _ => True
  | .ref p => (s.pool.cell p).isSome ∧ s.pool.refOf p < 255
  | .free p => p ∈ s.held
  | .cat h t => Joinable s.pool h t
  | .chain h t => Joinable s.pool h t ∧ s.pool.refOf t < 255
  | .dechain p => Head s.pool p
  | .realloc p _ => Head s.pool p
  | .removeHeader p decrement =>
    Head s.pool p ∧ (decrement ≤ s.pool.lenOf p ∨ 0xffff < decrement)
  | .addHeader p _ => Head s.pool p
  | .freeHeader p _ => p ∈ s.held ∧ ∀ a ∈ s.pool.chainAt p, s.pool.refOf a = 1
  | .take p dataptr len =>
    (s.pool.cell p).isSome ∧ len ≤ s.pool.totOf (some p) ∧ len.toNat ≤ dataptr.length
  | .copyPartial p dataptr len _ => (s.pool.cell p).isSome ∧ len.toNat ≤ dataptr.length

instance (m : PbufPool n) (p : Fin n) : Decidable (Head m p) :=
  inferInstanceAs (Decidable (_ ∧ _))

instance (m : PbufPool n) (h t : Fin n) : Decidable (Joinable m h t) :=
  inferInstanceAs (Decidable (_ ∧ _ ∧ _ ∧ _))

instance (s : PbufClients n) : (op : PbufOp n) → Decidable (Allowed s op)
  | .alloc _ _ => inferInstanceAs (Decidable True)
  | .ref _ => inferInstanceAs (Decidable (_ ∧ _))
  | .free _ => inferInstanceAs (Decidable (_ ∈ _))
  | .cat _ _ => inferInstanceAs (Decidable (Joinable _ _ _))
  | .chain _ _ => inferInstanceAs (Decidable (_ ∧ _))
  | .dechain _ => inferInstanceAs (Decidable (Head _ _))
  | .realloc _ _ => inferInstanceAs (Decidable (Head _ _))
  | .removeHeader _ _ => inferInstanceAs (Decidable (Head _ _ ∧ (_ ∨ _)))
  | .addHeader _ _ => inferInstanceAs (Decidable (Head _ _))
  | .freeHeader _ _ => inferInstanceAs (Decidable (_ ∧ ∀ a ∈ _, _))
  | .take _ _ _ => inferInstanceAs (Decidable (_ ∧ _ ∧ _))
  | .copyPartial _ _ _ _ => inferInstanceAs (Decidable (_ ∧ _))

structure Accounted (s : PbufClients n) : Prop where
  sound : s.pool.Sound s.held
  unwrapped : s.pool.Unwrapped

lemma Head.exists_cell {m : PbufPool n} {p : Fin n} (h : Head m p) : ∃ c, m.cell p = some c :=
  Option.isSome_iff_exists.mp h.1

lemma ref_add_one {m : PbufPool n} {p : Fin n} {c : PbufCell n} (hp : m.cell p = some c)
    (h : m.refOf p < 255) : c.ref + 1 ≠ 0 := by
  intro hzero
  have hnat := congrArg UInt8.toNat hzero
  rw [PbufPool.refOf_eq hp] at h
  rw [UInt8.toNat_add] at hnat
  change (c.ref.toNat + 1) % 256 = 0 at hnat
  omega

namespace Accounted

lemma init (memory : Fin n → Vector Byte pbufPoolBufsize) : (init memory).Accounted where
  sound := PbufPool.init_sound memory
  unwrapped _ _ h := by cases h

/-- The reference that the second chain is held by. -/
lemma held_tail (h : Accounted s) {t : Fin n} (ht : Head s.pool t) :
    s.held = t ::ₘ s.held.erase t := by
  obtain ⟨tail, hcell⟩ := ht.exists_cell
  exact (Multiset.cons_erase (h.sound.toOwned.mem_of_isHead hcell ht.2)).symm

lemma alloc (h : Accounted s) (layer : PbufLayer) (length : UInt16) :
    ∃ s' r, s.call (.alloc layer length) = some (s', r) ∧ Accounted s' := by
  obtain ⟨hfail, hgo⟩ := h.sound.alloc layer length
  rcases Nat.lt_or_ge s.pool.tab.length (layer.segments length.toNat) with hless | hle
  · refine ⟨⟨s.pool.exhausted, s.held⟩, .pbuf none, ?_, PbufPool.exhausted_sound h.sound,
      h.unwrapped⟩
    rw [call, hfail hless]
    rfl
  · obtain ⟨m', p, l, hcall, -, hnew⟩ := hgo hle
    obtain ⟨c, hp, -, -⟩ := hnew.first
    refine ⟨⟨m', p ::ₘ s.held⟩, .pbuf (some p), ?_, hnew.sound, ?_⟩
    · rw [call, hcall]
      rfl
    · apply h.unwrapped.of_chain hnew.sound hnew.thread
      · exact fun a ha => hnew.sound.toOwned.thread_live hnew.thread hp ha
      · rw [hnew.size]
        exact length.toNat_lt
      · exact hnew.outside

lemma ref (h : Accounted s) {p : Fin n} (hG : Allowed s (.ref p)) :
    ∃ s' r, s.call (.ref p) = some (s', r) ∧ Accounted s' := by
  obtain ⟨c, hp⟩ := Option.isSome_iff_exists.mp hG.1
  obtain ⟨m', hcall, hsound, hrecounted⟩ := h.sound.ref hp (ref_add_one hp hG.2)
  refine ⟨⟨m', p ::ₘ s.held⟩, .void, ?_, hsound, h.unwrapped.recounted hrecounted⟩
  rw [call, hcall]
  rfl

lemma free (h : Accounted s) {p : Fin n} (hG : Allowed s (.free p)) :
    ∃ s' r, s.call (.free p) = some (s', r) ∧ Accounted s' := by
  have hsound := h.sound
  rw [← Multiset.cons_erase hG] at hsound
  obtain ⟨m', count, hcall, hsound', hrecounted⟩ := hsound.free (h.sound.toOwned.chainAt p)
  refine ⟨⟨m', s.held.erase p⟩, .count count, ?_, hsound', h.unwrapped.recounted hrecounted⟩
  rw [call, hcall]
  rfl

lemma cat (h : Accounted s) {p t : Fin n} (hG : Allowed s (.cat p t)) :
    ∃ s' r, s.call (.cat p t) = some (s', r) ∧ Accounted s' := by
  obtain ⟨hp, ht, hpt, hroom⟩ := hG
  obtain ⟨c, hc⟩ := hp.exists_cell
  obtain ⟨tail, htail⟩ := ht.exists_cell
  have hsound := h.sound
  rw [h.held_tail ht] at hsound
  rw [PbufPool.totOf_some hc, PbufPool.totOf_some htail] at hroom
  have hl := h.sound.toOwned.chainAt p
  obtain ⟨hcall, hsound', -⟩ :=
    hsound.cat hc hp.2 htail ht.2 hpt hl (h.sound.toOwned.chainAt t)
  refine ⟨⟨_, s.held.erase t⟩, .void, ?_, hsound',
    hsound.cat_unwrapped h.unwrapped hc hp.2 htail ht.2 hpt hroom hl⟩
  rw [call, hcall]
  rfl

lemma chain (h : Accounted s) {p t : Fin n} (hG : Allowed s (.chain p t)) :
    ∃ s' r, s.call (.chain p t) = some (s', r) ∧ Accounted s' := by
  obtain ⟨⟨hp, ht, hpt, hroom⟩, href⟩ := hG
  obtain ⟨c, hc⟩ := hp.exists_cell
  obtain ⟨tail, htail⟩ := ht.exists_cell
  have hsound := h.sound
  rw [h.held_tail ht] at hsound
  rw [PbufPool.totOf_some hc, PbufPool.totOf_some htail] at hroom
  have hl := h.sound.toOwned.chainAt p
  obtain ⟨m', hcall, hsound', hrecounted⟩ :=
    hsound.chain hc hp.2 htail ht.2 hpt (ref_add_one htail href) hl
  rw [← h.held_tail ht] at hsound'
  refine ⟨⟨m', s.held⟩, .void, ?_, hsound', ?_⟩
  · rw [call, hcall]
    rfl
  · exact (hsound.cat_unwrapped h.unwrapped hc hp.2 htail ht.2 hpt hroom hl).recounted hrecounted

lemma dechain (h : Accounted s) {p : Fin n} (hp : Head s.pool p) :
    ∃ s' r, s.call (.dechain p) = some (s', r) ∧ Accounted s' := by
  obtain ⟨c, hc⟩ := hp.exists_cell
  obtain ⟨l, hl⟩ := h.sound.toOwned.exists_thread c.next
  obtain ⟨m', rest, hcall, hsound, hrecounted, -⟩ :=
    (h.sound.dechain hc hp.2 hl).1 (h.unwrapped p c hc)
  refine ⟨⟨m', s.held⟩, .pbuf rest, ?_, hsound, ?_⟩
  · rw [call, hcall]
    rfl
  · exact PbufPool.Unwrapped.recounted (h.unwrapped.set (UInt16.le_refl _)) hrecounted

lemma realloc (h : Accounted s) {p : Fin n} (hp : Head s.pool p) (newLen : UInt16) :
    ∃ s' r, s.call (.realloc p newLen) = some (s', r) ∧ Accounted s' := by
  obtain ⟨c, hc⟩ := hp.exists_cell
  by_cases hle : c.totLen ≤ newLen
  · refine ⟨s, .void, ?_, h⟩
    have hcall : s.pool.pbufRealloc p newLen = some s.pool := by
      rw [PbufPool.pbufRealloc, hc, Option.bind_eq_bind, Option.bind_some, if_pos hle]
      rfl
    rw [call, hcall]
    rfl
  · have hl := h.sound.toOwned.chainAt p
    obtain ⟨m', l₁, q, l₂, d, rem, hcall, hsound, hsplit, hq, hrem, hlen, -, hrecounted⟩ :=
      h.sound.realloc hc hp.2 hl hle
    rw [hsplit] at hl
    refine ⟨⟨m', s.held⟩, .void, ?_, hsound, ?_⟩
    · rw [call, hcall]
      rfl
    · exact (h.sound.shrunk_unwrapped h.unwrapped hc hp.2 hl hq hrem hlen).recounted hrecounted

lemma removeHeader (h : Accounted s) {p : Fin n} {decrement : ℕ}
    (hG : Allowed s (.removeHeader p decrement)) :
    ∃ s' r, s.call (.removeHeader p decrement) = some (s', r) ∧ Accounted s' := by
  obtain ⟨hp, hroom⟩ := hG
  obtain ⟨c, hc⟩ := hp.exists_cell
  rw [PbufPool.lenOf_eq hc] at hroom
  have hcall := PbufPool.pbufRemoveHeader_eq hc decrement
  by_cases hle : decrement ≤ c.len.toNat
  · rw [if_pos hle] at hcall
    refine ⟨⟨_, s.held⟩, .count 0, ?_, h.sound.hide hc hp.2 hle, ?_⟩
    · rw [call, hcall]
      rfl
    · exact h.unwrapped.set (PbufPool.hideCell_len_le (h.unwrapped p c hc) hle)
  · rw [if_neg hle, if_pos (hroom.resolve_left hle)] at hcall
    refine ⟨s, .count 1, ?_, h⟩
    rw [call, hcall]
    rfl

lemma addHeader (h : Accounted s) {p : Fin n} (hp : Head s.pool p) (increment : ℕ) :
    ∃ s' r, s.call (.addHeader p increment) = some (s', r) ∧ Accounted s' := by
  obtain ⟨c, hc⟩ := hp.exists_cell
  have hwindow := h.sound.window p c hc
  have hcall := PbufPool.pbufAddHeader_eq hc (le_of_add_le_left hwindow) increment
  by_cases hroom : increment ≤ c.payload ∧ increment + c.totLen.toNat < 2 ^ 16
  · rw [if_pos hroom] at hcall
    refine ⟨⟨_, s.held⟩, .count 0, ?_, h.sound.reveal hc hp.2 hroom.1, ?_⟩
    · rw [call, hcall]
      rfl
    · exact h.unwrapped.set (PbufPool.revealCell_len_le (h.unwrapped p c hc) hroom.2)
  · rw [if_neg hroom] at hcall
    refine ⟨s, .count 1, ?_, h⟩
    rw [call, hcall]
    rfl

lemma freeHeader (h : Accounted s) {p : Fin n} {size : UInt16} (hG : Allowed s (.freeHeader p size)) :
    ∃ s' r, s.call (.freeHeader p size) = some (s', r) ∧ Accounted s' := by
  have hsound := h.sound
  rw [← Multiset.cons_erase hG.1] at hsound
  have hl := h.sound.toOwned.chainAt p
  obtain ⟨m', rest, l₁, l₂, hcall, hsound', hsplit, hrest, -, houtside, hgone, -, hend⟩ :=
    PbufPool.Sound.freeHeaderLoop (p := some p) hsound hl hG.2 size
      ((PbufPool.Owned.thread_length_le hl).trans (Nat.le_succ n))
  refine ⟨⟨m', hold (s.held.erase p) rest⟩, .pbuf rest, ?_, hsound', ?_⟩
  · rw [call, PbufPool.pbufFreeHeader, hcall]
    rfl
  · intro a d ha
    change m'.cell a = some d at ha
    by_cases hal : a ∈ s.pool.chainAt p
    · rw [hsplit, List.mem_append] at hal
      rcases hal with hmem | hmem
      · rw [hgone a hmem] at ha
        cases ha
      · rcases hend with hnone | ⟨q, c, k, l₃, hq, hl₂, hc, hk, hc', hl₃⟩
        · rw [hnone] at hrest
          cases hrest
          simp at hmem
        · rw [hl₂, List.mem_cons] at hmem
          rcases hmem with hfirst | hbehind
          · rw [hfirst, hc', Option.some.injEq] at ha
            rw [← ha]
            exact PbufPool.hideCell_len_le (h.unwrapped q c hc) hk
          · rw [hl₃ a hbehind] at ha
            exact h.unwrapped a d ha
    · rw [houtside a hal] at ha
      exact h.unwrapped a d ha

lemma take (h : Accounted s) {p : Fin n} {dataptr : Buf} {len : UInt16}
    (hG : Allowed s (.take p dataptr len)) :
    ∃ s' r, s.call (.take p dataptr len) = some (s', r) ∧ Accounted s' := by
  obtain ⟨hp, hroom, hdata⟩ := hG
  obtain ⟨c, hc⟩ := Option.isSome_iff_exists.mp hp
  rw [PbufPool.totOf_some hc] at hroom
  obtain ⟨m', hcall, hsound, hcell, -⟩ :=
    h.sound.take hc (h.sound.toOwned.chainAt p) hroom hdata
  refine ⟨⟨m', s.held⟩, .err errOk, ?_, hsound, ?_⟩
  · rw [call, hcall]
    rfl
  · intro a d ha
    change m'.cell a = some d at ha
    rw [hcell] at ha
    exact h.unwrapped a d ha

lemma copyPartial (h : Accounted s) {p : Fin n} {dataptr : Buf} {len offset : UInt16}
    (hG : Allowed s (.copyPartial p dataptr len offset)) :
    ∃ r : UInt16, s.call (.copyPartial p dataptr len offset) =
        some (s, .bytes (dataptr.overlay (((s.pool.contents (s.pool.chainAt p)).drop
          offset.toNat).take len.toNat)) r) ∧
      r.toNat = (((s.pool.contents (s.pool.chainAt p)).drop offset.toNat).take len.toNat).length := by
  obtain ⟨c, hc⟩ := Option.isSome_iff_exists.mp hG.1
  have hl := h.sound.toOwned.chainAt p
  obtain ⟨chain, hchain, hbytes, -⟩ := h.sound.toChain_eq hl
    (fun a ha => h.sound.toOwned.thread_live hl hc ha) (PbufPool.Owned.thread_length_le hl)
  obtain ⟨r, hcopy, hr⟩ := pbufCopyPartial_from chain offset hG.2
  rw [hbytes] at hcopy hr
  refine ⟨r, ?_, hr⟩
  simp only [call, hchain, hcopy, Option.bind_eq_bind, Option.bind_some, Option.pure_def]

end Accounted

/-- A call that keeps the contract neither runs into an assertion or a free element nor goes on for
ever. -/
theorem call_accounted (h : Accounted s) (hG : Allowed s op) :
    ∃ s' r, s.call op = some (s', r) ∧ Accounted s' := by
  cases op with
  | alloc layer length => exact h.alloc layer length
  | ref p => exact h.ref hG
  | free p => exact h.free hG
  | cat p t => exact h.cat hG
  | chain p t => exact h.chain hG
  | dechain p => exact h.dechain hG
  | realloc p newLen => exact h.realloc hG newLen
  | removeHeader p decrement => exact h.removeHeader hG
  | addHeader p increment => exact h.addHeader hG increment
  | freeHeader p size => exact h.freeHeader hG
  | take p dataptr len => exact h.take hG
  | copyPartial p dataptr len offset =>
    obtain ⟨r, hcall, -⟩ := h.copyPartial hG
    exact ⟨s, _, hcall, h⟩

lemma run_accounted {s : PbufClients n} (hs : Accounted s) {ops : List (PbufOp n)}
    (h : Guarded step Allowed s ops) : ∃ s', run step s ops = some s' ∧ Accounted s' := by
  apply guarded_run_total _ hs h
  intro s op hs hG
  obtain ⟨s', r, hcall, hs'⟩ := call_accounted hs hG
  refine ⟨s', ?_, hs'⟩
  rw [step, hcall, Option.map_some]

lemma Accounted.mem_tab (h : Accounted s) (a : Fin n) :
    a ∈ s.pool.tab ↔ ∀ p ∈ s.held, a ∉ s.pool.chainAt p := by
  have hdead : ∀ b, s.pool.refOf b = 0 → s.pool.nextOf b = none :=
    fun b hb => PbufPool.nextOf_free (h.sound.live b hb)
  have hlive := h.sound.counted.live_iff h.sound.threaded hdead a
  have hfree : a ∈ s.pool.tab ↔ ¬0 < s.pool.refOf a := by
    rw [h.sound.mem_tab, Nat.pos_iff_ne_zero, not_not]
    exact ⟨fun hnone => PbufPool.refOf_free hnone, h.sound.live a⟩
  rw [hfree, hlive]
  constructor
  · intro hnot p hp ha
    exact hnot ⟨p, hp, _, h.sound.toOwned.chainAt p, ha⟩
  · rintro hnot ⟨p, hp, l, hl, ha⟩
    rw [← PbufPool.chainAt_eq hl] at ha
    exact hnot p hp ha

/-- Any run of calls that keep the contract goes through. After it an element is free, and then once
in the list of the free ones, unless a reference that is held leads to it; its count is the number
of references to it; and its `tot_len` is the length of its chain. When nothing is held, every
element is free again. -/
theorem pbufs_accounted (memory : Fin n → Vector Byte pbufPoolBufsize) (ops : List (PbufOp n))
    (h : Guarded step Allowed (init memory) ops) :
    ∃ s, run step (init memory) ops = some s ∧ s.pool.tab.Nodup ∧
      (∀ a, a ∈ s.pool.tab ↔ ∀ p ∈ s.held, a ∉ s.pool.chainAt p) ∧
      (∀ a c, s.pool.cell a = some c →
        c.ref.toNat = s.held.count a + indegree s.pool.nextOf a ∧
          c.totLen.toNat = s.pool.size (s.pool.chainAt a) ∧
          c.payload + c.len.toNat ≤ pbufPoolBufsize) ∧
      (s.held = 0 → s.pool.tab.Perm (List.finRange n)) := by
  obtain ⟨s, hrun, hs⟩ := run_accounted (Accounted.init memory) h
  refine ⟨s, hrun, hs.sound.tab_nodup, hs.mem_tab, ?_, ?_⟩
  · intro a c ha
    refine ⟨?_, ?_, hs.sound.window a c ha⟩
    · rw [← PbufPool.refOf_eq ha]
      exact hs.sound.counted a
    · exact hs.sound.toNat_totLen hs.unwrapped ha (hs.sound.toOwned.chainAt a)
  · intro hnone
    apply (List.perm_ext_iff_of_nodup hs.sound.tab_nodup (List.nodup_finRange n)).mpr
    intro a
    apply iff_of_true _ (List.mem_finRange a)
    rw [hs.mem_tab, hnone]
    simp

theorem pbufs_accounted_witness :
    ∃ s, run step (init (fun _ : Fin 4 => Vector.replicate pbufPoolBufsize 0))
        [.alloc .transport 600, .alloc .raw 10, .chain 3 1, .realloc 3 520, .removeHeader 3 14,
          .addHeader 3 20, .cat 3 1, .take 3 [1, 2, 3] 3, .copyPartial 3 [0, 0] 2 1,
          .freeHeader 3 523, .ref 2, .dechain 2, .free 2, .free 2] = some s ∧ s.pool.tab.Nodup := by
  obtain ⟨s, hrun, hnodup, -⟩ :=
    pbufs_accounted (fun _ : Fin 4 => Vector.replicate pbufPoolBufsize 0)
      [.alloc .transport 600, .alloc .raw 10, .chain 3 1, .realloc 3 520, .removeHeader 3 14,
        .addHeader 3 20, .cat 3 1, .take 3 [1, 2, 3] 3, .copyPartial 3 [0, 0] 2 1,
        .freeHeader 3 523, .ref 2, .dechain 2, .free 2, .free 2] (by decide +kernel)
  exact ⟨s, hrun, hnodup⟩

end PbufClients

end EthoSlip
