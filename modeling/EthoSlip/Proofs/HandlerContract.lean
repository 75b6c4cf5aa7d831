import EthoSlip.Proofs.Credentials

/-!
# The contract of `wlan_api_pack_proc`

On a good state the handler never leaves a buffer, whatever frame it is given; it leaves a good
state, touches nothing when it refuses, and has no more to do when a connect frame is repeated.
-/

namespace EthoSlip
open Lib

/-- The stored lengths are within their bounds, and the hardware address has six bytes. -/
structure ModuleState.Sound (m : ModuleState) : Prop extends m.Bounded where
  hwaddr_len : m.hwaddrLen = 6

/-- In a good state the stored SSID also has a NUL behind it. -/
structure ModuleState.Good (m : ModuleState) : Prop extends m.Sound where
  ssid_nul : m.gsSsid.val.toList[m.gsSsid.len.toNat]? = some 0

section Configure

variable {buf : Buf} {m m' : ModuleState}

lemma configure_good (hm : m.Sound) {ssidLen passwordLen : Byte}
    (hssid : ssidLen.toNat < wlanApiSsidMaxLen) (hpasswd : passwordLen.toNat < wlanApiPasswordMaxLen)
    (hbuf : sizeofWifiConnect ≤ buf.length) (h : configure buf ssidLen passwordLen m = some m') :
    m'.Good := by
  obtain ⟨m₁, hm₁, hbound, -, -⟩ := configure_uses (m := m) hssid hpasswd hbuf
  obtain ⟨val, passwd, hm₂, hval, -⟩ := configure_eq (m := m) hssid hpasswd hbuf
  have hbuf' : 115 ≤ buf.length := hbuf
  have hssid' : ssidLen.toNat < 33 := hssid
  have hlen : ((buf.drop offSsid).take ssidLen.toNat).length = ssidLen.toNat := by
    rw [List.length_take, List.length_drop, offSsid]
    omega
  rw [h, Option.some.injEq] at hm₁ hm₂
  rw [← hm₁] at hbound
  constructor
  · constructor
    · exact hbound
    · rw [hm₂]
      exact hm.hwaddr_len
  · rw [hm₂]
    change val.toList[ssidLen.toNat]? = some 0
    rw [hval, List.getElem?_append_right hlen.le, hlen, Nat.sub_self, List.getElem?_cons_zero]

/-- The case `WLAN_API_TYPE_CONNECT` writes the state only through `configure`. -/
lemma connectProc_result {len : Nat} {r : Int} (h : connectProc buf len m = some (m', r)) :
    m' = m ∨ r = 0 ∧ len = sizeofWifiConnect ∧ ∃ ssidLen passwordLen m₁,
      ssidLen.toNat < wlanApiSsidMaxLen ∧ passwordLen.toNat < wlanApiPasswordMaxLen ∧
      configure buf ssidLen passwordLen m = some m₁ ∧
      m' = { m₁ with connects := m₁.connects + 1 } := by
  unfold connectProc at h
  split_ifs at h with hlen
  · simp only [Option.some.injEq, Prod.mk.injEq] at h
    exact .inl h.1.symm
  obtain ⟨ssidLen, -, h⟩ := Option.bind_eq_some_iff.mp h
  split_ifs at h with hssid
  · simp only [Option.pure_def, Option.some.injEq, Prod.mk.injEq] at h
    exact .inl h.1.symm
  obtain ⟨passwordLen, -, h⟩ := Option.bind_eq_some_iff.mp h
  split_ifs at h with hpasswd
  · simp only [Option.pure_def, Option.some.injEq, Prod.mk.injEq] at h
    exact .inl h.1.symm
  obtain ⟨same, -, h⟩ := Option.bind_eq_some_iff.mp h
  split_ifs at h with hsame
  · simp only [Option.pure_def, Option.some.injEq, Prod.mk.injEq] at h
    exact .inl h.1.symm
  obtain ⟨m₁, hm₁, h⟩ := Option.bind_eq_some_iff.mp h
  simp only [Option.pure_def, Option.some.injEq, Prod.mk.injEq] at h
  exact .inr ⟨h.2.symm, (not_not.mp hlen).symm, ssidLen, passwordLen, m₁, not_le.mp hssid,
    not_le.mp hpasswd, hm₁, h.1.symm⟩

lemma connectProc_good (hm : m.Sound) {len : Nat} (hbuf : len ≤ buf.length) {r : Int}
    (h : connectProc buf len m = some (m', r)) : m' = m ∨ m'.Good := by
  obtain rfl | ⟨-, rfl, ssidLen, passwordLen, m₁, hssid, hpasswd, hm₁, rfl⟩ := connectProc_result h
  · exact .inl rfl
  · have hgood := configure_good hm hssid hpasswd hbuf hm₁
    exact .inr ⟨⟨⟨hgood.ssid_len, hgood.passwd_nul, hgood.passwd_len⟩, hgood.hwaddr_len⟩,
      hgood.ssid_nul⟩

/-- An accepted connect frame finds its credentials configured when it comes again. -/
lemma connectProc_again (hm : m.Bounded) (hbuf : sizeofWifiConnect ≤ buf.length)
    (h : connectProc buf sizeofWifiConnect m = some (m', 0)) :
    connectProc buf sizeofWifiConnect m' = some (m', 0) := by
  have hbuf' : 115 ≤ buf.length := hbuf
  obtain ⟨ssidLen, hs⟩ := exists_load (p := buf) (i := offSsidLen) (by rw [offSsidLen]; omega)
  obtain ⟨passwordLen, hp⟩ :=
    exists_load (p := buf) (i := offPasswordLen) (by rw [offPasswordLen]; omega)
  obtain ⟨m₁, r₁, h₁, hbound, hcases⟩ := connectProc_cases hm hbuf hs hp
  rw [h, Option.some.injEq, Prod.mk.injEq] at h₁
  obtain ⟨rfl, rfl⟩ := h₁
  obtain ⟨hr, -⟩ | ⟨-, rfl, -⟩ | ⟨-, -, -, huses⟩ := hcases
  · exact absurd hr (by decide)
  · exact h
  · have hlooks : LooksConfigured buf m' := by
      constructor
      · rw [huses.bytes]
        exact List.take_prefix _ _
      · rw [huses.password]
        exact (cString_isPrefix _).trans (List.take_prefix _ _)
    have hlimits : ¬(wlanApiSsidMaxLen ≤ ssidLen.toNat ∨ wlanApiPasswordMaxLen ≤ passwordLen.toNat) := by
      intro hlimits
      rw [connectProc, if_neg (by simp), hs, hp] at h
      by_cases hssid : wlanApiSsidMaxLen ≤ ssidLen.toNat
      · simp [hssid] at h
      · simp [hlimits.resolve_left hssid] at h
    obtain ⟨m₂, r₂, h₂, -, hcases⟩ := connectProc_cases hbound hbuf hs hp
    obtain ⟨-, -, htoolong⟩ | ⟨rfl, rfl, -⟩ | ⟨-, -, hnot, -⟩ := hcases
    · exact absurd htoolong hlimits
    · exact h₂
    · exact absurd hlooks hnot

end Configure

/-- The request with the address in its `src`, the type of the reply and `buf[0]` set. -/
def hwaddrAnswer (hwaddr : Vector Byte 6) (buf : Buf) : Buf :=
  buf.take offSrc ++ (hwaddr.toList ++ ((buf.drop 12).take 2 ++
    wlanApiTypeGetHwaddrRet :: 0x01 :: buf.drop sizeofDefault))

lemma length_hwaddrAnswer (hwaddr : Vector Byte 6) {buf : Buf} (h : sizeofDefault ≤ buf.length) :
    (hwaddrAnswer hwaddr buf).length = buf.length := by
  have h' : 16 ≤ buf.length := h
  simp only [hwaddrAnswer, offSrc, sizeofDefault, List.length_append, List.length_take,
    List.length_cons, List.length_drop, Vector.length_toList]
  omega

lemma wlanApiPackProc_getHwaddr {m : ModuleState} (hlen : m.hwaddrLen = 6) {buf : Buf} {len : Nat}
    (hsize : sizeofDefault ≤ len) (hbuf : len ≤ buf.length)
    (htype : buf.load offType = some wlanApiTypeGetHwaddr) :
    wlanApiPackProc buf len m = some (hwaddrAnswer m.hwaddr buf, m, (sizeofDefault : Int)) := by
  have hsize' : 16 ≤ len := hsize
  have h14 : 14 < buf.length := by omega
  have h15 : 15 < buf.length := by omega
  have hcopy : buf.memcpy offSrc m.hwaddr.toList m.hwaddrLen.toNat =
      some (buf.take 6 ++ m.hwaddr.toList ++ buf.drop 12) := by
    have hroom : offSrc + (6 : Byte).toNat ≤ buf.length ∧ (6 : Byte).toNat ≤ m.hwaddr.toList.length := by
      rw [Vector.length_toList]
      exact ⟨Nat.le_trans (by decide) (hsize.trans hbuf), le_rfl⟩
    have hall : m.hwaddr.toList.take (6 : Byte).toNat = m.hwaddr.toList :=
      List.take_of_length_le (by rw [Vector.length_toList]; exact le_rfl)
    rw [hlen, Buf.memcpy, if_pos hroom, hall]
    rfl
  have hfields : buf.drop 12 = (buf.drop 12).take 2 ++ buf[14] :: buf[15] :: buf.drop 16 := by
    rw [← List.drop_eq_getElem_cons h15, ← List.drop_eq_getElem_cons h14]
    change buf.drop 12 = (buf.drop 12).take 2 ++ buf.drop (12 + 2)
    rw [← List.drop_drop, List.take_append_drop]
  have hfront : (buf.take 6 ++ m.hwaddr.toList ++ (buf.drop 12).take 2).length = offType := by
    simp only [List.length_append, List.length_take, List.length_drop, Vector.length_toList, offType]
    omega
  have hstore := Buf.store_field (buf.take 6 ++ m.hwaddr.toList ++ (buf.drop 12).take 2)
    (buf[15] :: buf.drop 16) buf[14] wlanApiTypeGetHwaddrRet rfl hfront.symm
  have hstore' := Buf.store_field
    (buf.take 6 ++ m.hwaddr.toList ++ (buf.drop 12).take 2 ++ [wlanApiTypeGetHwaddrRet])
    (buf.drop 16) buf[15] 0x01 rfl (i := offBuf) (by rw [List.length_append, hfront]; rfl)
  rw [List.append_assoc, ← hfields] at hstore
  rw [List.append_assoc, List.singleton_append] at hstore'
  have hanswer : buf.take 6 ++ m.hwaddr.toList ++ (buf.drop 12).take 2 ++ [wlanApiTypeGetHwaddrRet] ++
      0x01 :: buf.drop 16 = hwaddrAnswer m.hwaddr buf := by
    simp [hwaddrAnswer, offSrc, sizeofDefault]
  rw [hanswer] at hstore'
  have hconnect : ¬(wlanApiTypeGetHwaddr = wlanApiTypeConnect) := by decide
  rw [wlanApiPackProc, if_neg (not_lt.mpr hsize), htype]
  simp only [Option.bind_eq_bind, Option.bind_some, if_neg hconnect, if_true, hcopy, hstore, hstore',
    Option.pure_def]

/-- What a call comes to: the frame is refused, it is a connect frame that is accepted, or it asks
for the address and is answered in place. -/
inductive Handled (buf : Buf) (len : Nat) (m : ModuleState) : Buf → ModuleState → Int → Prop
  | refused : Handled buf len m buf m (-1)
  | connected (m' : ModuleState) (h : IsConnect buf len)
      (hproc : connectProc buf sizeofWifiConnect m = some (m', 0)) : Handled buf len m buf m' 0
  | answered (h : sizeofDefault ≤ len) (htype : buf.load offType = some wlanApiTypeGetHwaddr) :
      Handled buf len m (hwaddrAnswer m.hwaddr buf) m sizeofDefault

section Handler

variable {buf : Buf} {len : Nat} {m : ModuleState}

lemma connectProc_wrong_size (m : ModuleState) (h : len ≠ sizeofWifiConnect) :
    connectProc buf len m = some (m, -1) := by
  rw [connectProc, if_pos (Ne.symm h)]

/-- On a sound state no frame makes the handler leave an object. -/
lemma wlanApiPackProc_handled (hm : m.Sound) (hlen : len ≤ buf.length) :
    ∃ buf' m' r, wlanApiPackProc buf len m = some (buf', m', r) ∧ Handled buf len m buf' m' r := by
  by_cases hshort : len < sizeofDefault
  · exact ⟨buf, m, -1, by rw [wlanApiPackProc, if_pos hshort], .refused⟩
  have hsize : sizeofDefault ≤ len := not_lt.mp hshort
  have h16 : 16 ≤ len := hsize
  obtain ⟨type, htype⟩ := exists_load (p := buf) (i := offType) (by rw [offType]; omega)
  by_cases hconnect : type = wlanApiTypeConnect
  · rw [hconnect] at htype
    by_cases hfull : len = sizeofWifiConnect
    · have hbuf : 115 ≤ buf.length := by
        rw [hfull] at hlen
        exact hlen
      obtain ⟨ssidLen, hs⟩ := exists_load (p := buf) (i := offSsidLen) (by rw [offSsidLen]; omega)
      obtain ⟨passwordLen, hp⟩ :=
        exists_load (p := buf) (i := offPasswordLen) (by rw [offPasswordLen]; omega)
      obtain ⟨m', r, hproc, -, hcases⟩ := connectProc_cases hm.toBounded hbuf hs hp
      have hcall := wlanApiPackProc_connect m ⟨htype, hfull⟩
      rw [hproc, Option.map_some] at hcall
      refine ⟨buf, m', r, hcall, ?_⟩
      obtain ⟨rfl, rfl, -⟩ | ⟨rfl, -, -⟩ | ⟨rfl, -, -, -⟩ := hcases
      · exact .refused
      · exact .connected m' ⟨htype, hfull⟩ hproc
      · exact .connected m' ⟨htype, hfull⟩ hproc
    · refine ⟨buf, m, -1, ?_, .refused⟩
      rw [wlanApiPackProc, if_neg hshort, htype]
      simp [connectProc_wrong_size m hfull]
  · by_cases hget : type = wlanApiTypeGetHwaddr
    · rw [hget] at htype
      exact ⟨_, m, _, wlanApiPackProc_getHwaddr hm.hwaddr_len hsize hlen htype,
        .answered hsize htype⟩
    · refine ⟨buf, m, -1, ?_, .refused⟩
      rw [wlanApiPackProc, if_neg hshort, htype]
      simp [hconnect, hget]

variable {buf' : Buf} {m' : ModuleState} {r : Int}

lemma Handled.length_eq (h : Handled buf len m buf' m' r) (hlen : len ≤ buf.length) :
    buf'.length = buf.length := by
  cases h with
  | refused => rfl
  | connected => rfl
  | answered hsize => exact length_hwaddrAnswer m.hwaddr (hsize.trans hlen)

/-- The state is the old one or has been configured from the frame. -/
lemma Handled.good (h : Handled buf len m buf' m' r) (hm : m.Sound) (hlen : len ≤ buf.length) :
    m' = m ∨ m'.Good := by
  cases h with
  | refused => exact .inl rfl
  | connected _ hconnect hproc =>
    rw [hconnect.2] at hlen
    exact connectProc_good hm hlen hproc
  | answered => exact .inl rfl

lemma Handled.keeps_sound (h : Handled buf len m buf' m' r) (hm : m.Sound) (hlen : len ≤ buf.length) :
    m'.Sound := by
  obtain rfl | hgood := h.good hm hlen
  · exact hm
  · exact hgood.toSound

lemma Handled.keeps_good (h : Handled buf len m buf' m' r) (hm : m.Good) (hlen : len ≤ buf.length) :
    m'.Good := by
  obtain rfl | hgood := h.good hm.toSound hlen
  · exact hm
  · exact hgood

lemma Handled.unchanged (h : Handled buf len m buf' m' r) (hr : r = -1) : buf' = buf ∧ m' = m := by
  cases h with
  | refused => exact ⟨rfl, rfl⟩
  | connected => exact absurd hr (by decide)
  | answered => exact absurd hr (by decide)

lemma Handled.again (h : Handled buf len m buf' m' r) (hm : m.Good) (hlen : len ≤ buf.length)
    (hconnect : IsConnect buf len) (hr : r = 0) : wlanApiPackProc buf' len m' = some (buf', m', 0) := by
  cases h with
  | refused => exact absurd hr (by decide)
  | connected _ _ hproc =>
    rw [hconnect.2] at hlen
    rw [wlanApiPackProc_connect m' hconnect, connectProc_again hm.toBounded hlen hproc,
      Option.map_some]
  | answered => exact absurd hr (by decide)

end Handler

/-- A frame of which the buffer holds no byte more. -/
def Received.whole (buf : Buf) : Received := ⟨buf, buf.length, le_rfl⟩

lemma receive_good {m : ModuleState} (hm : m.Good) (f : Received) :
    ∃ m', receive m f = some m' ∧ m'.Good := by
  obtain ⟨buf', m', r, hcall, hhandled⟩ := wlanApiPackProc_handled hm.toSound f.fits
  exact ⟨m', by rw [receive, hcall, Option.map_some], hhandled.keeps_good hm f.fits⟩

/-- For every good state and every frame the handler stays inside the frame and its own arrays,
leaves a good state, changes nothing where it returns -1 (no call of `wlan_connect_wifi` either),
and does nothing more for an accepted connect frame that comes again. So every sequence of frames
leads from a good state to a good one. -/
theorem pack_proc_contract {m : ModuleState} (hm : m.Good) :
    (∀ buf : Buf, ∃ buf' m' r, wlanApiPackProc buf buf.length m = some (buf', m', r) ∧
      buf'.length = buf.length ∧ m'.Good ∧ (r = -1 → buf' = buf ∧ m' = m) ∧
      (IsConnect buf buf.length → r = 0 →
        wlanApiPackProc buf' buf'.length m' = some (buf', m', 0))) ∧
    ∀ frames : List Buf, ∃ m', run receive m (frames.map Received.whole) = some m' ∧ m'.Good := by
  constructor
  · intro buf
    obtain ⟨buf', m', r, hcall, hhandled⟩ := wlanApiPackProc_handled hm.toSound (le_refl buf.length)
    have hlength := hhandled.length_eq le_rfl
    refine ⟨buf', m', r, hcall, hlength, hhandled.keeps_good hm le_rfl, hhandled.unchanged, ?_⟩
    intro hconnect hr
    rw [hlength]
    exact hhandled.again hm le_rfl hconnect hr
  · intro frames
    apply run_total (A := fun _ => True) _ _ hm (fun _ _ => trivial)
    intro m f hm _
    exact receive_good hm f

lemma labModule_good : labModule.Good := by
  constructor
  · constructor
    · constructor
      · decide
      · decide
      · decide
    · rfl
  · decide

theorem pack_proc_contract_witness :
    ∃ m', run receive labModule ([[], connectFrame lab2Ssid lab2Passwd,
      connectFrame lab2Ssid lab2Passwd, getHwaddrFrame].map Received.whole) = some m' ∧ m'.Good :=
  (pack_proc_contract labModule_good).2 _

end EthoSlip
