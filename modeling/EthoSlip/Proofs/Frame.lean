import EthoSlip.Model.WlanApi

/-!
# Calls on a part of the memory

What a function does on an object it does on every larger one that begins with it, and leaves the
rest alone. So a handler that stays inside a frame depends on nothing behind it.
-/

namespace EthoSlip

section Memory

variable {p p' : Buf} {i n : Nat} (z : Buf)

lemma load_append {c : Byte} (h : p.load i = some c) : Buf.load (p ++ z) i = some c := by
  obtain ⟨hi, -⟩ := List.getElem?_eq_some_iff.mp h
  rw [Buf.load, List.getElem?_append_left hi]
  exact h

lemma store_append {c : Byte} (h : p.store i c = some p') :
    Buf.store (p ++ z) i c = some (p' ++ z) := by
  unfold Buf.store at h
  split_ifs at h with hi
  rw [Option.some.injEq] at h
  have hi' : i < (p ++ z).length := by
    rw [List.length_append]
    omega
  rw [Buf.store, if_pos hi', List.set_append_left _ _ hi, h]

lemma memcpy_append {src : Buf} (h : p.memcpy i src n = some p') :
    Buf.memcpy (p ++ z) i src n = some (p' ++ z) := by
  unfold Buf.memcpy at h
  split_ifs at h with hroom
  rw [Option.some.injEq] at h
  have hroom' : i + n ≤ (p ++ z).length ∧ n ≤ src.length := by
    rw [List.length_append]
    omega
  rw [Buf.memcpy, if_pos hroom', List.take_append_of_le_length (by omega),
    List.drop_append_of_le_length hroom.1, ← h]
  simp only [List.append_assoc]

lemma memcmp_append {q : Buf} {o : Ordering} (h : memcmp q p n = some o) :
    memcmp q (p ++ z) n = some o := by
  unfold memcmp at h
  split_ifs at h with hroom
  have hroom' : n ≤ q.length ∧ n ≤ (p ++ z).length := by
    rw [List.length_append]
    omega
  rw [memcmp, if_pos hroom', List.take_append_of_le_length hroom.2]
  exact h

lemma copyArray_append {k : Nat} {dst copied : Vector Byte k} (h : copyArray dst p n = some copied) :
    copyArray dst (p ++ z) n = some copied := by
  unfold copyArray at h
  split_ifs at h with hroom
  have hroom' : n ≤ k ∧ n ≤ (p ++ z).length := by
    rw [List.length_append]
    omega
  have htake : (p ++ z).take n = p.take n := List.take_append_of_le_length hroom.2
  rw [copyArray, dif_pos hroom', ← h]
  simp only [htake]

end Memory

section Handler

variable {buf buf' : Buf} {m m' : ModuleState} (z : Buf)

lemma wasConfigured_append {b : Bool} (h : wasConfigured buf m = some b) :
    wasConfigured (buf ++ z) m = some b := by
  obtain ⟨o, ho, h⟩ := Option.bind_eq_some_iff.mp h
  have ho' := memcmp_append (z.drop (offSsid - buf.length)) ho
  rw [wasConfigured, List.drop_append, ho']
  simp only [Option.bind_eq_bind, Option.bind_some]
  split_ifs at h ⊢ with heq
  · obtain ⟨len, hlen, h⟩ := Option.bind_eq_some_iff.mp h
    obtain ⟨o₁, ho₁, h⟩ := Option.bind_eq_some_iff.mp h
    have ho₁' := memcmp_append (z.drop (offPassword - buf.length)) ho₁
    rw [hlen, Option.bind_some, List.drop_append, ho₁', Option.bind_some]
    exact h
  · exact h

lemma configure_append {ssidLen passwordLen : Byte}
    (h : configure buf ssidLen passwordLen m = some m') :
    configure (buf ++ z) ssidLen passwordLen m = some m' := by
  obtain ⟨val, hval, h⟩ := Option.bind_eq_some_iff.mp h
  obtain ⟨val', hval', h⟩ := Option.bind_eq_some_iff.mp h
  obtain ⟨len, hlen, h⟩ := Option.bind_eq_some_iff.mp h
  obtain ⟨passwd, hpasswd, h⟩ := Option.bind_eq_some_iff.mp h
  have hcopy := copyArray_append (z.drop (offSsid - buf.length)) hval
  have hcopy' := copyArray_append (z.drop (offPassword - buf.length)) hpasswd
  simp only [configure, List.drop_append, hcopy, hval', hlen, hcopy', Option.bind_eq_bind,
    Option.bind_some]
  exact h

lemma connectProc_append {len : Nat} {r : Int} (h : connectProc buf len m = some (m', r)) :
    connectProc (buf ++ z) len m = some (m', r) := by
  unfold connectProc at h ⊢
  split_ifs at h ⊢ with hlen
  · exact h
  obtain ⟨ssidLen, hs, h⟩ := Option.bind_eq_some_iff.mp h
  rw [load_append z hs, Option.bind_eq_bind, Option.bind_some]
  split_ifs at h ⊢ with hssid
  · exact h
  obtain ⟨passwordLen, hp, h⟩ := Option.bind_eq_some_iff.mp h
  rw [load_append z hp, Option.bind_some]
  split_ifs at h ⊢ with hpasswd
  · exact h
  obtain ⟨same, hsame, h⟩ := Option.bind_eq_some_iff.mp h
  rw [wasConfigured_append z hsame, Option.bind_eq_bind, Option.bind_some]
  split_ifs at h ⊢ with hb
  · exact h
  obtain ⟨m₁, hm₁, h⟩ := Option.bind_eq_some_iff.mp h
  rw [configure_append z hm₁, Option.bind_eq_bind, Option.bind_some]
  exact h

lemma wlanApiPackProc_append {len : Nat} {r : Int}
    (h : wlanApiPackProc buf len m = some (buf', m', r)) :
    wlanApiPackProc (buf ++ z) len m = some (buf' ++ z, m', r) := by
  unfold wlanApiPackProc at h ⊢
  split_ifs at h ⊢ with hshort
  · simp only [Option.some.injEq, Prod.mk.injEq] at h ⊢
    exact ⟨by rw [h.1], h.2⟩
  obtain ⟨type, htype, h⟩ := Option.bind_eq_some_iff.mp h
  rw [load_append z htype, Option.bind_eq_bind, Option.bind_some]
  split_ifs at h ⊢ with hconnect hget
  · obtain ⟨⟨m₁, r₁⟩, hproc, h⟩ := Option.bind_eq_some_iff.mp h
    rw [connectProc_append z hproc, Option.bind_eq_bind, Option.bind_some]
    simp only [Option.pure_def, Option.some.injEq, Prod.mk.injEq] at h ⊢
    exact ⟨by rw [h.1], h.2⟩
  · obtain ⟨b₁, h₁, h⟩ := Option.bind_eq_some_iff.mp h
    obtain ⟨b₂, h₂, h⟩ := Option.bind_eq_some_iff.mp h
    obtain ⟨b₃, h₃, h⟩ := Option.bind_eq_some_iff.mp h
    simp only [memcpy_append z h₁, store_append z h₂, store_append z h₃, Option.bind_eq_bind,
      Option.bind_some]
    simp only [Option.pure_def, Option.some.injEq, Prod.mk.injEq] at h ⊢
    exact ⟨by rw [h.1], h.2⟩
  · simp only [Option.pure_def, Option.some.injEq, Prod.mk.injEq] at h ⊢
    exact ⟨by rw [h.1], h.2⟩

lemma isWlanApiFrame_append {b : Bool} (h : isWlanApiFrame buf = some b) :
    isWlanApiFrame (buf ++ z) = some b := by
  obtain ⟨c, hc, h⟩ := Option.bind_eq_some_iff.mp h
  rw [isWlanApiFrame, load_append z hc, Option.bind_eq_bind, Option.bind_some]
  split_ifs at h ⊢ with hff
  · obtain ⟨d, hd, h⟩ := Option.bind_eq_some_iff.mp h
    rw [load_append z hd, Option.bind_some]
    exact h
  · exact h

end Handler

end EthoSlip
