import EthoSlip.Lib.Run
import EthoSlip.Proofs.Delivery
import EthoSlip.Proofs.Requests

/-!
# Wi-Fi credentials

What `wlan_api_pack_proc` stores for a connect frame, and when its shortcut for credentials that
are configured already leaves others in place. The shortcut compares only as many bytes as are
stored, so that it is taken for every extension of the stored SSID and password.
-/

namespace EthoSlip
open Lib

def RtwSsid.bytes (ssid : RtwSsid) : List Byte := ssid.val.toList.take ssid.len.toNat

def ModuleState.password (m : ModuleState) : List Byte := cString m.gsPasswd.toList

lemma ModuleState.zero_not_mem_password (m : ModuleState) : 0 ∉ m.password :=
  zero_not_mem_cString _

/-- The module uses these credentials: the password up to its first NUL. -/
structure ModuleState.Uses (m : ModuleState) (ssid passwd : List Byte) : Prop where
  len : m.gsSsid.len.toNat = ssid.length
  bytes : m.gsSsid.bytes = ssid
  password : m.password = cString passwd

/-- The stored SSID has at most 32 bytes, the stored password is a string of at most 64. -/
structure ModuleState.Bounded (m : ModuleState) : Prop where
  ssid_len : m.gsSsid.len.toNat ≤ 32
  passwd_nul : 0 ∈ m.gsPasswd.toList
  passwd_len : m.password.length ≤ 64

lemma ModuleState.Bounded.length_bytes {m : ModuleState} (hm : m.Bounded) :
    m.gsSsid.bytes.length = m.gsSsid.len.toNat := by
  have hlen := hm.ssid_len
  rw [RtwSsid.bytes, List.length_take, Vector.length_toList, wlanApiSsidMaxLen]
  omega

section Frame

variable {buf : Buf} {m : ModuleState}

/-- The test under `//SAME` asks whether the stored strings begin the fields of the frame. -/
lemma wasConfigured_eq (hm : m.Bounded) (hbuf : sizeofWifiConnect ≤ buf.length) :
    ∃ b, wasConfigured buf m = some b ∧
      (b = true ↔ m.gsSsid.bytes <+: buf.drop offSsid ∧ m.password <+: buf.drop offPassword) := by
  have hbuf' : 115 ≤ buf.length := hbuf
  have hssid := hm.ssid_len
  have hpasswd := hm.passwd_len
  have hstrlen : strlen m.gsPasswd.toList = some m.password.length := strlen_eq _ hm.passwd_nul
  obtain ⟨o, ho, hoeq⟩ := memcmp_eq m.gsSsid.val.toList (buf.drop offSsid) m.gsSsid.len.toNat
    (by rw [Vector.length_toList, wlanApiSsidMaxLen]; omega)
    (by rw [List.length_drop, offSsid]; omega)
  obtain ⟨o', ho', ho'eq⟩ := memcmp_eq m.gsPasswd.toList (buf.drop offPassword) m.password.length
    (by rw [Vector.length_toList]; omega)
    (by rw [List.length_drop, offPassword]; omega)
  have hsame : o = .eq ↔ m.gsSsid.bytes <+: buf.drop offSsid := by
    rw [List.prefix_iff_eq_take, hm.length_bytes]
    exact hoeq
  have hsame' : o' = .eq ↔ m.password <+: buf.drop offPassword := by
    have htake : m.gsPasswd.toList.take m.password.length = m.password :=
      (List.prefix_iff_eq_take.mp (cString_isPrefix _)).symm
    rw [List.prefix_iff_eq_take, ho'eq, htake]
  unfold wasConfigured
  by_cases heq : o = .eq
  · refine ⟨decide (o' = .eq), ?_, ?_⟩
    · simp only [ho, heq, hstrlen, ho', Option.bind_eq_bind, Option.bind_some, if_true,
        Option.pure_def]
    · rw [← hsame, ← hsame', decide_eq_true_iff]
      exact ⟨fun h => ⟨heq, h⟩, fun h => h.2⟩
  · refine ⟨false, ?_, ?_⟩
    · simp only [ho, heq, Option.bind_eq_bind, Option.bind_some, if_false, Option.pure_def]
    · rw [← hsame]
      simp [heq]

lemma configure_eq {ssidLen passwordLen : Byte} (hssid : ssidLen.toNat < wlanApiSsidMaxLen)
    (hpasswd : passwordLen.toNat < wlanApiPasswordMaxLen) (hbuf : sizeofWifiConnect ≤ buf.length) :
    ∃ val passwd, configure buf ssidLen passwordLen m =
        some { m with
          gsSsid := ⟨ssidLen, val⟩
          gsPasswd := passwd
          gsSecurityType := if passwordLen = 0 then .open else .wpa2AesPsk } ∧
      val.toList = (buf.drop offSsid).take ssidLen.toNat ++
        0 :: m.gsSsid.val.toList.drop (ssidLen.toNat + 1) ∧
      passwd.toList = (buf.drop offPassword).take passwordLen.toNat ++
        0 :: m.gsPasswd.toList.drop (passwordLen.toNat + 1) := by
  have hbuf' : 115 ≤ buf.length := hbuf
  unfold wlanApiSsidMaxLen at hssid
  unfold wlanApiPasswordMaxLen at hpasswd
  obtain ⟨v, v', hv, hv', hvl⟩ := copyArray_terminated m.gsSsid.val (buf.drop offSsid)
    ssidLen.toNat hssid (by rw [List.length_drop, offSsid]; omega)
  obtain ⟨w, w', hw, hw', hwl⟩ := copyArray_terminated m.gsPasswd (buf.drop offPassword)
    passwordLen.toNat (by omega) (by rw [List.length_drop, offPassword]; omega)
  have hvstr := strlen_eq v'.toList (by rw [hvl]; simp)
  have hwstr := strlen_eq w'.toList (by rw [hwl]; simp)
  refine ⟨v', w', ?_, hvl, hwl⟩
  simp only [configure, hv, hv', hvstr, hw, hw', hwstr, Option.bind_eq_bind, Option.bind_some,
    Option.pure_def]

lemma configure_uses {ssidLen passwordLen : Byte} (hssid : ssidLen.toNat < wlanApiSsidMaxLen)
    (hpasswd : passwordLen.toNat < wlanApiPasswordMaxLen) (hbuf : sizeofWifiConnect ≤ buf.length) :
    ∃ m', configure buf ssidLen passwordLen m = some m' ∧ m'.Bounded ∧
      m'.Uses ((buf.drop offSsid).take ssidLen.toNat)
        ((buf.drop offPassword).take passwordLen.toNat) ∧ m'.connects = m.connects := by
  obtain ⟨val, passwd, hm', hval, hpasswd'⟩ := configure_eq (m := m) hssid hpasswd hbuf
  have hbuf' : 115 ≤ buf.length := hbuf
  unfold wlanApiSsidMaxLen at hssid
  unfold wlanApiPasswordMaxLen at hpasswd
  have hssidLen : ((buf.drop offSsid).take ssidLen.toNat).length = ssidLen.toNat := by
    rw [List.length_take, List.length_drop, offSsid]
    omega
  have hpasswdLen : ((buf.drop offPassword).take passwordLen.toNat).length = passwordLen.toNat := by
    rw [List.length_take, List.length_drop, offPassword]
    omega
  have hpassword : cString passwd.toList = cString ((buf.drop offPassword).take passwordLen.toNat) := by
    rw [hpasswd', cString_append_zero]
  refine ⟨_, hm', ⟨?_, ?_, ?_⟩, ⟨?_, ?_, ?_⟩, rfl⟩
  · exact Nat.le_of_lt_succ hssid
  · change 0 ∈ passwd.toList
    rw [hpasswd']
    simp
  · change (cString passwd.toList).length ≤ 64
    have hle := (cString_isPrefix ((buf.drop offPassword).take passwordLen.toNat)).length_le
    rw [hpassword]
    omega
  · exact hssidLen.symm
  · change val.toList.take ssidLen.toNat = _
    rw [hval, List.take_append_of_le_length hssidLen.ge, List.take_of_length_le hssidLen.le]
  · exact hpassword

/-- The stored credentials begin those in the frame. -/
def LooksConfigured (buf : Buf) (m : ModuleState) : Prop :=
  m.gsSsid.bytes <+: buf.drop offSsid ∧ m.password <+: buf.drop offPassword

/-- The case `WLAN_API_TYPE_CONNECT` rejects the frame, takes the shortcut, or configures. -/
lemma connectProc_cases (hm : m.Bounded) (hbuf : sizeofWifiConnect ≤ buf.length)
    {ssidLen passwordLen : Byte} (hs : buf.load offSsidLen = some ssidLen)
    (hp : buf.load offPasswordLen = some passwordLen) :
    ∃ m' r, connectProc buf sizeofWifiConnect m = some (m', r) ∧ m'.Bounded ∧
      (r = -1 ∧ m' = m ∧
          (wlanApiSsidMaxLen ≤ ssidLen.toNat ∨ wlanApiPasswordMaxLen ≤ passwordLen.toNat) ∨
        r = 0 ∧ m' = m ∧ LooksConfigured buf m ∨
        r = 0 ∧ m'.connects = m.connects + 1 ∧ ¬LooksConfigured buf m ∧
          m'.Uses ((buf.drop offSsid).take ssidLen.toNat)
            ((buf.drop offPassword).take passwordLen.toNat)) := by
  rw [connectProc, if_neg (by simp), hs, hp]
  by_cases hssid : wlanApiSsidMaxLen ≤ ssidLen.toNat
  · exact ⟨m, -1, by simp [hssid], hm, .inl ⟨rfl, rfl, .inl hssid⟩⟩
  by_cases hpasswd : wlanApiPasswordMaxLen ≤ passwordLen.toNat
  · exact ⟨m, -1, by simp [hpasswd], hm, .inl ⟨rfl, rfl, .inr hpasswd⟩⟩
  obtain ⟨b, hb, hbiff⟩ := wasConfigured_eq hm hbuf
  cases b with
  | true =>
    refine ⟨m, 0, by simp [hssid, hpasswd, hb], hm, .inr (.inl ⟨rfl, rfl, ?_⟩)⟩
    exact hbiff.mp rfl
  | false =>
    obtain ⟨m', hm', hbound, huses, hconnects⟩ :=
      configure_uses (m := m) (not_le.mp hssid) (not_le.mp hpasswd) hbuf
    refine ⟨{ m' with connects := m'.connects + 1 }, 0, by simp [hssid, hpasswd, hb, hm'], ?_, ?_⟩
    · exact ⟨hbound.ssid_len, hbound.passwd_nul, hbound.passwd_len⟩
    · refine .inr (.inr ⟨rfl, ?_, ?_, ⟨huses.len, huses.bytes, huses.password⟩⟩)
      · rw [hconnects]
      · intro hlooks
        exact absurd (hbiff.mpr hlooks) (by simp)

end Frame

/-- A connect frame of the size that is asked for. -/
def IsConnect (buf : Buf) (len : Nat) : Prop :=
  buf.load offType = some wlanApiTypeConnect ∧ len = sizeofWifiConnect

lemma wlanApiPackProc_connect {buf : Buf} {len : Nat} (m : ModuleState) (h : IsConnect buf len) :
    wlanApiPackProc buf len m =
      (connectProc buf sizeofWifiConnect m).map (fun r => (buf, r.1, r.2)) := by
  obtain ⟨htype, rfl⟩ := h
  rw [wlanApiPackProc, if_neg (by decide), htype]
  cases connectProc buf sizeofWifiConnect m with
  | none => simp
  | some r => simp

lemma wlanApiPackProc_other {buf buf' : Buf} {len : Nat} {m m' : ModuleState} {r : Int}
    (hother : ¬IsConnect buf len) (h : wlanApiPackProc buf len m = some (buf', m', r)) :
    m' = m := by
  unfold wlanApiPackProc at h
  split_ifs at h with hshort
  · simp only [Option.some.injEq, Prod.mk.injEq] at h
    exact h.2.1.symm
  · obtain ⟨type, hload, h⟩ := Option.bind_eq_some_iff.mp h
    split_ifs at h with hconnect hget
    · have hlen : sizeofWifiConnect ≠ len := by
        intro hlen
        exact hother ⟨by rw [hload, hconnect], hlen.symm⟩
      rw [connectProc, if_pos hlen] at h
      simp only [Option.bind_eq_bind, Option.bind_some, Option.pure_def, Option.some.injEq,
        Prod.mk.injEq] at h
      exact h.2.1.symm
    · obtain ⟨b₁, -, h⟩ := Option.bind_eq_some_iff.mp h
      obtain ⟨b₂, -, h⟩ := Option.bind_eq_some_iff.mp h
      obtain ⟨b₃, -, h⟩ := Option.bind_eq_some_iff.mp h
      simp only [Option.pure_def, Option.some.injEq, Prod.mk.injEq] at h
      exact h.2.1.symm
    · simp only [Option.pure_def, Option.some.injEq, Prod.mk.injEq] at h
      exact h.2.1.symm

/-- Whatever the module receives, the stored lengths stay within their bounds. -/
lemma receive_bounded {m m' : ModuleState} {f : Received} (hm : m.Bounded)
    (h : receive m f = some m') : m'.Bounded := by
  obtain ⟨⟨buf', m'', r⟩, hproc, rfl⟩ := Option.map_eq_some_iff.mp h
  by_cases hconnect : IsConnect f.buf f.len
  · have hfits := f.fits
    have hbuf : 115 ≤ f.buf.length := by
      rw [hconnect.2] at hfits
      exact hfits
    obtain ⟨ssidLen, hs⟩ := exists_load (p := f.buf) (i := offSsidLen) (by rw [offSsidLen]; omega)
    obtain ⟨passwordLen, hp⟩ :=
      exists_load (p := f.buf) (i := offPasswordLen) (by rw [offPasswordLen]; omega)
    obtain ⟨m₁, r₁, hproc₁, hbound, -⟩ := connectProc_cases hm hbuf hs hp
    rw [wlanApiPackProc_connect m hconnect, hproc₁] at hproc
    simp only [Option.map_some, Option.some.injEq, Prod.mk.injEq] at hproc
    rw [← hproc.2.1]
    exact hbound
  · rw [wlanApiPackProc_other hconnect hproc]
    exact hm

/-! ### The PC's connect frame -/

/-- The stored SSID begins the zero-padded SSID, the stored password begins the password. -/
def ExtendsStored (m : ModuleState) (ssid passwd : List Byte) : Prop :=
  m.gsSsid.bytes <+: zeroPad wlanApiSsidMaxLen ssid ∧ m.password <+: cString passwd

lemma prefix_cString {xs : List Byte} (p : Buf) (h : 0 ∉ xs) : xs <+: p ↔ xs <+: cString p := by
  constructor
  · rintro ⟨t, rfl⟩
    have hxs : ∀ c ∈ xs, decide (c ≠ 0) = true := by
      intro c hc
      rw [decide_eq_true_iff]
      rintro rfl
      exact h hc
    rw [cString, List.takeWhile_append_of_pos hxs]
    exact List.prefix_append _ _
  · intro hxs
    exact hxs.trans (cString_isPrefix p)

lemma cString_zeroPad {n : Nat} (xs rest : List Byte) (h : xs.length < n) :
    cString (zeroPad n xs ++ rest) = cString xs := by
  obtain ⟨k, hk⟩ : ∃ k, n - xs.length = k + 1 := ⟨n - xs.length - 1, by omega⟩
  rw [zeroPad, hk, List.replicate_succ, List.append_assoc, List.cons_append, cString_append_zero]

lemma looksConfigured_iff {m : ModuleState} (hm : m.Bounded) {ssid passwd : List Byte}
    (hssid : ssid.length < wlanApiSsidMaxLen) (hpasswd : passwd.length < wlanApiPasswordMaxLen)
    (rest : List Byte) :
    LooksConfigured (connectFrame ssid passwd ++ rest) m ↔ ExtendsStored m ssid passwd := by
  obtain ⟨behind, hfield⟩ := connectFrame_ssid ssid passwd rest
  have hlen : m.gsSsid.bytes.length ≤ (zeroPad wlanApiSsidMaxLen ssid).length := by
    have hbound := hm.ssid_len
    rw [hm.length_bytes, length_zeroPad hssid.le, wlanApiSsidMaxLen]
    omega
  have hssid' : m.gsSsid.bytes <+: zeroPad wlanApiSsidMaxLen ssid ++ behind ↔
      m.gsSsid.bytes <+: zeroPad wlanApiSsidMaxLen ssid :=
    ⟨fun h => List.prefix_of_prefix_length_le h (List.prefix_append _ _) hlen,
      fun h => h.trans (List.prefix_append _ _)⟩
  rw [LooksConfigured, ExtendsStored, hfield, connectFrame_password passwd rest hssid, hssid',
    prefix_cString _ m.zero_not_mem_password, cString_zeroPad passwd rest hpasswd]

/-- Credentials that extend the stored ones are the stored ones just when they are as long. -/
lemma ExtendsStored.uses_iff {m : ModuleState} (hm : m.Bounded) {ssid passwd : List Byte}
    (h : ExtendsStored m ssid passwd) :
    m.Uses ssid passwd ↔
      m.gsSsid.len.toNat = ssid.length ∧ m.password.length = (cString passwd).length := by
  constructor
  · intro huses
    exact ⟨huses.len, by rw [huses.password]⟩
  · rintro ⟨hssid, hpasswd⟩
    refine ⟨hssid, ?_, h.2.eq_of_length hpasswd⟩
    have hprefix : ssid <+: zeroPad wlanApiSsidMaxLen ssid := List.prefix_append _ _
    have hlen : m.gsSsid.bytes.length = ssid.length := by rw [hm.length_bytes, hssid]
    exact (List.prefix_of_prefix_length_le h.1 hprefix hlen.le).eq_of_length hlen

lemma toNat_ssidLen {ssid : List Byte} (h : ssid.length < wlanApiSsidMaxLen) :
    (UInt8.ofNat ssid.length).toNat = ssid.length :=
  UInt8.toNat_ofNat_of_lt' (h.trans (by decide))

lemma toNat_passwdLen {passwd : List Byte} (h : passwd.length < wlanApiPasswordMaxLen) :
    (UInt8.ofNat passwd.length).toNat = passwd.length :=
  UInt8.toNat_ofNat_of_lt' (h.trans (by decide))

lemma wlanApiPackProc_connectFrame {m : ModuleState} (hm : m.Bounded) {ssid passwd : List Byte}
    (hssid : ssid.length < wlanApiSsidMaxLen) (hpasswd : passwd.length < wlanApiPasswordMaxLen)
    (rest : List Byte) :
    ∃ m', wlanApiPackProc (connectFrame ssid passwd ++ rest) sizeofWifiConnect m =
        some (connectFrame ssid passwd ++ rest, m', 0) ∧
      (ExtendsStored m ssid passwd ∧ m' = m ∨
        ¬ExtendsStored m ssid passwd ∧ m'.connects = m.connects + 1 ∧ m'.Uses ssid passwd) := by
  have hbuf : sizeofWifiConnect ≤ (connectFrame ssid passwd ++ rest).length := by
    rw [List.length_append, length_connectFrame hssid hpasswd]
    omega
  have hssidLen := toNat_ssidLen hssid
  have hpasswdLen := toNat_passwdLen hpasswd
  obtain ⟨m', r, hproc, -, hcases⟩ := connectProc_cases hm hbuf (connectFrame_ssidLen ssid passwd rest)
    (connectFrame_passwordLen passwd rest hssid)
  rw [looksConfigured_iff hm hssid hpasswd, hssidLen, hpasswdLen] at hcases
  have hdropped : ((connectFrame ssid passwd ++ rest).drop offSsid).take ssid.length = ssid := by
    obtain ⟨behind, hfield⟩ := connectFrame_ssid ssid passwd rest
    rw [hfield, take_zeroPad]
  have hdropped' : ((connectFrame ssid passwd ++ rest).drop offPassword).take passwd.length =
      passwd := by
    rw [connectFrame_password passwd rest hssid, take_zeroPad]
  rw [hdropped, hdropped'] at hcases
  rw [wlanApiPackProc_connect m ⟨connectFrame_type ssid passwd rest, rfl⟩, hproc]
  obtain ⟨-, -, htoolong⟩ | ⟨rfl, hsame, hext⟩ | ⟨rfl, hconnects, hext, huses⟩ := hcases
  · omega
  · exact ⟨m', rfl, .inl ⟨hext, hsame⟩⟩
  · exact ⟨m', rfl, .inr ⟨hext, hconnects, huses⟩⟩

lemma connectFrame_arrives {ssid passwd : List Byte} (hssid : ssid.length < wlanApiSsidMaxLen)
    (hpasswd : passwd.length < wlanApiPasswordMaxLen)
    (object : Vector Byte (sizeofWifiConnect + 2)) (slipOutBuffer : Vector Byte moduleBufSize) :
    ∃ t, wlanApiConnect bufferedUart (some object) ssid passwd (UInt8.ofNat ssid.length)
        (UInt8.ofNat passwd.length) TxBuffer.init = some (t, 0) ∧
      accepted slipOutBuffer t.written.flatten = [connectFrame ssid passwd] := by
  have hssidLen := toNat_ssidLen hssid
  have hpasswdLen := toNat_passwdLen hpasswd
  obtain ⟨t, hsend, -, hwritten⟩ := wlanApiConnect_buffered object ssid passwd
    (UInt8.ofNat ssid.length) (UInt8.ofNat passwd.length) (by rw [hssidLen]; exact hssid)
    (by rw [hpasswdLen]; exact hpasswd) hssidLen.le hpasswdLen.le TxBuffer.init rfl
  refine ⟨t, hsend, ?_⟩
  have hline : t.written.flatten = lineOf [connectFrame ssid passwd] := by
    rw [hwritten, hssidLen, hpasswdLen, List.take_length, List.take_length]
    rfl
  rw [hline]
  apply accepted_lineOf
  intro q hq
  rw [List.mem_singleton.mp hq, FitsModule, length_connectFrame hssid hpasswd]
  decide

/-- Whatever the module has received before, the connect frame of the PC arrives as it was built and
is answered with 0. The module then uses the credentials that were sent, and skips the update only
where it uses them already, if and only if those do not extend the stored ones or are exactly as
long. -/
theorem credentials_used_iff {m₀ m : ModuleState} (hm₀ : m₀.Bounded) (earlier : List Received)
    (hearlier : run receive m₀ earlier = some m) (ssid passwd : List Byte)
    (hssid : ssid.length < wlanApiSsidMaxLen) (hpasswd : passwd.length < wlanApiPasswordMaxLen)
    (object : Vector Byte (sizeofWifiConnect + 2)) (slipOutBuffer : Vector Byte moduleBufSize)
    (rest : List Byte) :
    ∃ t m', wlanApiConnect bufferedUart (some object) ssid passwd (UInt8.ofNat ssid.length)
        (UInt8.ofNat passwd.length) TxBuffer.init = some (t, 0) ∧
      accepted slipOutBuffer t.written.flatten = [connectFrame ssid passwd] ∧
      wlanApiPackProc (connectFrame ssid passwd ++ rest) sizeofWifiConnect m =
        some (connectFrame ssid passwd ++ rest, m', 0) ∧
      (m'.Uses ssid passwd ∧ (m'.connects = m.connects → m.Uses ssid passwd) ↔
        (ExtendsStored m ssid passwd →
          m.gsSsid.len.toNat = ssid.length ∧ m.password.length = (cString passwd).length)) := by
  have hm : m.Bounded := run_invariant (fun _ _ _ hs h => receive_bounded hs h) hm₀ hearlier
  obtain ⟨t, hsend, haccepted⟩ := connectFrame_arrives hssid hpasswd object slipOutBuffer
  obtain ⟨m', hproc, hcases⟩ := wlanApiPackProc_connectFrame hm hssid hpasswd rest
  refine ⟨t, m', hsend, haccepted, hproc, ?_⟩
  obtain ⟨hext, rfl⟩ | ⟨hext, hconnects, huses⟩ := hcases
  · rw [← hext.uses_iff hm]
    constructor
    · intro h _
      exact h.1
    · intro h
      exact ⟨h hext, fun _ => h hext⟩
  · constructor
    · intro _ h
      exact absurd h hext
    · intro _
      refine ⟨huses, fun h => ?_⟩
      rw [hconnects] at h
      exact absurd h (Nat.succ_ne_self _)

/-! An open network `lab`, joined after the network `home`, and the request for `lab2`. -/

def homeSsid : List Byte := [0x68, 0x6f, 0x6d, 0x65]
def homePasswd : List Byte := [0x73]
def labSsid : List Byte := [0x6c, 0x61, 0x62]
def lab2Ssid : List Byte := [0x6c, 0x61, 0x62, 0x32]
def lab2Passwd : List Byte := [0x73, 0x65, 0x63, 0x72, 0x65, 0x74]

def moduleWith (ssid passwd : List Byte) (hssid : (zeroPad wlanApiSsidMaxLen ssid).length = 33)
    (hpasswd : (zeroPad 100 passwd).length = 100) (security : RtwSecurity) (connects : Nat) :
    ModuleState where
  gsSsid := ⟨UInt8.ofNat ssid.length, ⟨(zeroPad wlanApiSsidMaxLen ssid).toArray, hssid⟩⟩
  gsPasswd := ⟨(zeroPad 100 passwd).toArray, hpasswd⟩
  gsSecurityType := security
  hwaddr := Vector.replicate 6 0
  hwaddrLen := 6
  connects := connects

def homeModule : ModuleState := moduleWith homeSsid homePasswd rfl rfl .wpa2AesPsk 0
def labModule : ModuleState := moduleWith labSsid [] rfl rfl .open 1

def labRequest : Received := ⟨connectFrame labSsid [], sizeofWifiConnect, by decide⟩

lemma homeModule_bounded : homeModule.Bounded := by
  constructor
  · decide
  · decide
  · decide

lemma homeModule_joins_lab : run receive homeModule [labRequest] = some labModule := by
  decide +kernel

/-- The module that has joined `home` and then `lab` is sent the credentials of `home` again. -/
theorem credentials_used_iff_witness :
    ∃ t m', wlanApiConnect bufferedUart (some (Vector.replicate _ 0)) homeSsid homePasswd
        (UInt8.ofNat homeSsid.length) (UInt8.ofNat homePasswd.length) TxBuffer.init =
          some (t, 0) ∧
      accepted (Vector.replicate moduleBufSize 0) t.written.flatten =
        [connectFrame homeSsid homePasswd] ∧
      wlanApiPackProc (connectFrame homeSsid homePasswd ++ []) sizeofWifiConnect labModule =
        some (connectFrame homeSsid homePasswd ++ [], m', 0) ∧
      (m'.Uses homeSsid homePasswd ∧
          (m'.connects = labModule.connects → labModule.Uses homeSsid homePasswd) ↔
        (ExtendsStored labModule homeSsid homePasswd →
          labModule.gsSsid.len.toNat = homeSsid.length ∧
            labModule.password.length = (cString homePasswd).length)) :=
  credentials_used_iff homeModule_bounded [labRequest] homeModule_joins_lab homeSsid homePasswd
    (by decide) (by decide) (Vector.replicate _ 0) (Vector.replicate _ 0) []

/-- From the open network `lab` the module does not change to `lab2`, and answers 0. -/
theorem extended_credentials_ignored :
    ¬∀ (m₀ m m' : ModuleState) (earlier : List Received) (ssid passwd : List Byte),
      m₀.Bounded → run receive m₀ earlier = some m → ssid.length < wlanApiSsidMaxLen →
      passwd.length < wlanApiPasswordMaxLen →
      wlanApiPackProc (connectFrame ssid passwd) sizeofWifiConnect m =
        some (connectFrame ssid passwd, m', 0) →
      m'.Uses ssid passwd ∧ (m'.connects = m.connects → m.Uses ssid passwd) := by
  intro h
  have hproc : wlanApiPackProc (connectFrame lab2Ssid lab2Passwd) sizeofWifiConnect labModule =
      some (connectFrame lab2Ssid lab2Passwd, labModule, 0) := by decide +kernel
  obtain ⟨huses, -⟩ := h homeModule labModule labModule [labRequest] lab2Ssid lab2Passwd
    homeModule_bounded homeModule_joins_lab (by decide) (by decide) hproc
  exact absurd huses.len (by decide)

end EthoSlip
