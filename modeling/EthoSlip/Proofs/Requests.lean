import EthoSlip.Model.WlanApi
import EthoSlip.Proofs.Sender

/-!
# The requests of the PC

The bytes that `wlan_api_connect` and `wlan_api_get_hwaddr` hand to `send_packet`.
-/

namespace EthoSlip
open Lib

def connectFrame (ssid passwd : List Byte) : List Byte :=
  etherHeader ++ wlanApiTypeConnect :: UInt8.ofNat ssid.length ::
    (zeroPad wlanApiSsidMaxLen ssid ++ UInt8.ofNat passwd.length ::
      zeroPad wlanApiPasswordMaxLen passwd)

def getHwaddrFrame : List Byte := etherHeader ++ [wlanApiTypeGetHwaddr, 0x00]

lemma length_connectFrame {ssid passwd : List Byte} (hssid : ssid.length < wlanApiSsidMaxLen)
    (hpasswd : passwd.length < wlanApiPasswordMaxLen) :
    (connectFrame ssid passwd).length = sizeofWifiConnect := by
  rw [connectFrame, List.length_append, List.length_cons, List.length_cons, List.length_append,
    List.length_cons, length_zeroPad hssid.le, length_zeroPad hpasswd.le]
  rfl

section Fields

variable (ssid passwd rest : List Byte)

lemma connectFrame_type :
    Buf.load (connectFrame ssid passwd ++ rest) offType = some wlanApiTypeConnect := rfl

lemma connectFrame_ssidLen :
    Buf.load (connectFrame ssid passwd ++ rest) offSsidLen = some (UInt8.ofNat ssid.length) := rfl

lemma connectFrame_ssid :
    ∃ behind, (connectFrame ssid passwd ++ rest).drop offSsid =
      zeroPad wlanApiSsidMaxLen ssid ++ behind := by
  refine ⟨UInt8.ofNat passwd.length :: (zeroPad wlanApiPasswordMaxLen passwd ++ rest), ?_⟩
  rw [connectFrame, List.append_assoc]
  change zeroPad wlanApiSsidMaxLen ssid ++ _ ++ rest = _
  rw [List.append_assoc, List.cons_append]

variable {ssid} (hssid : ssid.length < wlanApiSsidMaxLen)

include hssid

/-- The password length stands behind 49 bytes, the password behind it. -/
lemma connectFrame_split :
    ∃ front : List Byte, front.length = offPasswordLen ∧ connectFrame ssid passwd ++ rest =
      front ++ UInt8.ofNat passwd.length :: (zeroPad wlanApiPasswordMaxLen passwd ++ rest) := by
  refine ⟨etherHeader ++ wlanApiTypeConnect :: UInt8.ofNat ssid.length ::
    zeroPad wlanApiSsidMaxLen ssid, ?_, by simp [connectFrame]⟩
  rw [List.length_append, List.length_cons, List.length_cons, length_zeroPad hssid.le]
  rfl

lemma connectFrame_passwordLen :
    Buf.load (connectFrame ssid passwd ++ rest) offPasswordLen =
      some (UInt8.ofNat passwd.length) := by
  obtain ⟨front, hlen, heq⟩ := connectFrame_split passwd rest hssid
  rw [Buf.load, heq, ← hlen, List.getElem?_append_right le_rfl, Nat.sub_self,
    List.getElem?_cons_zero]

lemma connectFrame_password :
    (connectFrame ssid passwd ++ rest).drop offPassword =
      zeroPad wlanApiPasswordMaxLen passwd ++ rest := by
  obtain ⟨front, hlen, heq⟩ := connectFrame_split passwd rest hssid
  have hoff : offPassword = front.length + 1 := by rw [hlen]; rfl
  rw [heq, hoff, List.drop_append, List.drop_of_length_le (Nat.le_succ _), Nat.add_sub_cancel_left]
  rfl

end Fields

/-- The object of `wlan_api_connect`, field by field, with the two bytes behind the structure. -/
def connectMemory (header : List Byte) (type ssidLen : Byte) (ssid : List Byte)
    (passwordLen : Byte) (password : List Byte) : Buf :=
  header ++ type :: ssidLen :: (ssid ++ passwordLen :: (password ++ [0, 0]))

section ConnectMemory

variable (header ssidField passwordField : List Byte) (a b c : Byte)

lemma connectMemory_memset (object : Vector Byte (sizeofWifiConnect + 2)) :
    Buf.memset object.toList 0 (sizeofWifiConnect + 2) =
      some (connectMemory (List.replicate 14 0) 0 0 (List.replicate wlanApiSsidMaxLen 0) 0
        (List.replicate wlanApiPasswordMaxLen 0)) := by
  rw [Buf.memset, if_pos (by simp), List.drop_of_length_le (by simp)]
  rfl

lemma connectMemory_header :
    (connectMemory (List.replicate 14 0) a b ssidField c passwordField).memcpy 0 etherHeader
        etherHeader.length =
      some (connectMemory etherHeader a b ssidField c passwordField) := by
  apply Buf.memcpy_field (n := 14) [] _ etherHeader etherHeader.length rfl rfl
  · decide
  · exact le_rfl

lemma connectMemory_type (type : Byte) :
    (connectMemory etherHeader a b ssidField c passwordField).store offType type =
      some (connectMemory etherHeader type b ssidField c passwordField) := by
  apply Buf.store_field etherHeader _ a type rfl rfl

lemma connectMemory_ssidLen (ssidLen : Byte) :
    (connectMemory etherHeader a b ssidField c passwordField).store offSsidLen ssidLen =
      some (connectMemory etherHeader a ssidLen ssidField c passwordField) := by
  apply Buf.store_field (etherHeader ++ [a]) _ b ssidLen rfl rfl

lemma connectMemory_ssid (ssid : Buf) (k : Nat) (hk : k ≤ wlanApiSsidMaxLen)
    (hssid : k ≤ ssid.length) :
    (connectMemory etherHeader a b (List.replicate wlanApiSsidMaxLen 0) c passwordField).memcpy
        offSsid ssid k =
      some (connectMemory etherHeader a b (zeroPad wlanApiSsidMaxLen (ssid.take k)) c
        passwordField) := by
  apply Buf.memcpy_field (etherHeader ++ [a, b]) _ ssid k rfl rfl hk hssid

variable {ssidField} (hfield : ssidField.length = wlanApiSsidMaxLen)

include hfield

lemma connectMemory_passwordLen (passwordLen : Byte) :
    (connectMemory etherHeader a b ssidField c passwordField).store offPasswordLen passwordLen =
      some (connectMemory etherHeader a b ssidField passwordLen passwordField) := by
  have hmem (c : Byte) : connectMemory etherHeader a b ssidField c passwordField =
      (etherHeader ++ a :: b :: ssidField) ++ c :: (passwordField ++ [0, 0]) := by
    simp [connectMemory]
  rw [hmem passwordLen]
  apply Buf.store_field _ _ c passwordLen (hmem c)
  simp [hfield, offPasswordLen, etherHeader, wlanApiSsidMaxLen]

lemma connectMemory_password (passwd : Buf) (k : Nat) (hk : k ≤ wlanApiPasswordMaxLen)
    (hpasswd : k ≤ passwd.length) :
    (connectMemory etherHeader a b ssidField c (List.replicate wlanApiPasswordMaxLen 0)).memcpy
        offPassword passwd k =
      some (connectMemory etherHeader a b ssidField c
        (zeroPad wlanApiPasswordMaxLen (passwd.take k))) := by
  have hmem (field : List Byte) : connectMemory etherHeader a b ssidField c field =
      (etherHeader ++ a :: b :: (ssidField ++ [c])) ++ (field ++ [0, 0]) := by
    simp [connectMemory]
  rw [hmem (zeroPad _ _)]
  apply Buf.memcpy_field _ _ passwd k (hmem _) _ hk hpasswd
  simp [hfield, offPassword, etherHeader, wlanApiSsidMaxLen]

end ConnectMemory

section Credentials

variable {ssid passwd : List Byte} {ssidLen passwdLen : Byte}
  (hssid : ssidLen.toNat < wlanApiSsidMaxLen) (hpasswd : passwdLen.toNat < wlanApiPasswordMaxLen)
  (hssidLen : ssidLen.toNat ≤ ssid.length) (hpasswdLen : passwdLen.toNat ≤ passwd.length)

include hssid hpasswd hssidLen hpasswdLen

lemma length_connectFrame_take :
    (connectFrame (ssid.take ssidLen.toNat) (passwd.take passwdLen.toNat)).length =
      sizeofWifiConnect := by
  apply length_connectFrame
  · rw [List.length_take_of_le hssidLen]
    exact hssid
  · rw [List.length_take_of_le hpasswdLen]
    exact hpasswd

lemma connectMemory_frame :
    connectMemory etherHeader wlanApiTypeConnect ssidLen
        (zeroPad wlanApiSsidMaxLen (ssid.take ssidLen.toNat)) passwdLen
        (zeroPad wlanApiPasswordMaxLen (passwd.take passwdLen.toNat)) =
      Buf.overlay (List.replicate (sizeofWifiConnect + 2) 0)
        (connectFrame (ssid.take ssidLen.toNat) (passwd.take passwdLen.toNat)) := by
  have hlen := length_connectFrame_take hssid hpasswd hssidLen hpasswdLen
  rw [Buf.overlay, hlen, connectFrame, List.length_take_of_le hssidLen,
    List.length_take_of_le hpasswdLen, UInt8.ofNat_toNat, UInt8.ofNat_toNat]
  simp [connectMemory]

end Credentials

/-- Credentials within the limits are sent as their connect frame. -/
theorem wlanApiConnect_eq {τ : Type} (uart : ByteSink τ)
    (object : Vector Byte (sizeofWifiConnect + 2)) (ssid passwd : Buf) (ssidLen passwdLen : Byte)
    (hssid : ssidLen.toNat < wlanApiSsidMaxLen) (hpasswd : passwdLen.toNat < wlanApiPasswordMaxLen)
    (hssidLen : ssidLen.toNat ≤ ssid.length) (hpasswdLen : passwdLen.toNat ≤ passwd.length) (t : τ) :
    wlanApiConnect uart (some object) ssid passwd ssidLen passwdLen t =
      (sendPacket uart
        (sealPayload (connectFrame (ssid.take ssidLen.toNat) (passwd.take passwdLen.toNat)))
        (sizeofWifiConnect + 2) t).map (fun t => (t, 0)) := by
  have hlimits : ¬(wlanApiSsidMaxLen ≤ ssidLen.toNat ∨ wlanApiPasswordMaxLen ≤ passwdLen.toNat) := by
    omega
  have hfield : (zeroPad wlanApiSsidMaxLen (ssid.take ssidLen.toNat)).length = wlanApiSsidMaxLen := by
    apply length_zeroPad
    rw [List.length_take_of_le hssidLen]
    exact hssid.le
  have hlen := length_connectFrame_take hssid hpasswd hssidLen hpasswdLen
  have hframe := connectMemory_frame hssid hpasswd hssidLen hpasswdLen
  have hsum := ifApiCalculateChecksum_overlay (List.replicate (sizeofWifiConnect + 2) 0)
    (connectFrame (ssid.take ssidLen.toNat) (passwd.take passwdLen.toNat))
    (by rw [hlen, List.length_replicate])
  rw [hlen] at hsum
  rw [wlanApiConnect, if_neg hlimits]
  simp only [connectMemory_memset, connectMemory_header, connectMemory_type,
    connectMemory_ssid _ _ _ _ ssid _ hssid.le hssidLen,
    connectMemory_password _ _ _ hfield passwd _ hpasswd.le hpasswdLen, connectMemory_ssidLen,
    connectMemory_passwordLen _ _ _ _ hfield, hframe, hsum, Option.bind_eq_bind, Option.bind_some]
  have hsend := sendPacket_overlay uart (List.replicate (sizeofWifiConnect + 2) 0)
    (sealPayload (connectFrame (ssid.take ssidLen.toNat) (passwd.take passwdLen.toNat))) t
  rw [length_sealPayload, hlen] at hsend
  rw [hsend]
  cases sendPacket uart _ _ t with
  | none => rfl
  | some t => rfl

lemma wlanApiConnect_buffered (object : Vector Byte (sizeofWifiConnect + 2)) (ssid passwd : Buf)
    (ssidLen passwdLen : Byte) (hssid : ssidLen.toNat < wlanApiSsidMaxLen)
    (hpasswd : passwdLen.toNat < wlanApiPasswordMaxLen) (hssidLen : ssidLen.toNat ≤ ssid.length)
    (hpasswdLen : passwdLen.toNat ≤ passwd.length) (t : TxBuffer) (ht : t.gsTxPtr = 0) :
    ∃ t', wlanApiConnect bufferedUart (some object) ssid passwd ssidLen passwdLen t =
        some (t', 0) ∧ t'.gsTxPtr = 0 ∧
      t'.written = t.written ++
        [lineFrame (connectFrame (ssid.take ssidLen.toNat) (passwd.take passwdLen.toNat))] := by
  have hlen := length_connectFrame_take hssid hpasswd hssidLen hpasswdLen
  obtain ⟨t', hsend, hptr, hwritten⟩ := sendPacket_buffered
    (sealPayload (connectFrame (ssid.take ssidLen.toNat) (passwd.take passwdLen.toNat))) t ht
  rw [length_sealPayload, hlen] at hsend
  refine ⟨t', ?_, hptr, hwritten⟩
  rw [wlanApiConnect_eq _ _ _ _ _ _ hssid hpasswd hssidLen hpasswdLen, hsend, Option.map_some]

theorem wlanApiGetHwaddr_eq {τ γ : Type} (uart : ByteSink τ)
    (object : Vector Byte (sizeofDefault + 2)) (successCallback : Option γ) (api : WlanApi γ) (t : τ) :
    wlanApiGetHwaddr uart (some object) successCallback api t =
      (sendPacket uart (sealPayload getHwaddrFrame) (sizeofDefault + 2) t).map
        (fun t => (⟨wlanApiTypeGetHwaddr, successCallback⟩, t, 0)) := by
  have hlen : object.toList.length = 18 := Vector.length_toList
  have hheader := Buf.memcpy_front object.toList etherHeader (by rw [hlen]; decide)
  have htype := Buf.store_overlay object.toList etherHeader wlanApiTypeGetHwaddr
    (by rw [hlen]; decide)
  have hbuf := Buf.store_overlay object.toList (etherHeader ++ [wlanApiTypeGetHwaddr]) 0x00
    (by rw [hlen]; decide)
  have hsum := ifApiCalculateChecksum_overlay object.toList getHwaddrFrame (by rw [hlen]; decide)
  have hsend := sendPacket_overlay uart object.toList (sealPayload getHwaddrFrame) t
  change Buf.store _ offType _ = _ at htype
  change Buf.store _ offBuf _ = some (Buf.overlay _ getHwaddrFrame) at hbuf
  change ifApiCalculateChecksum _ sizeofDefault = some (_, sizeofDefault + 2) at hsum
  change sendPacket _ _ (sizeofDefault + 2) _ = sendPacket _ _ (sizeofDefault + 2) _ at hsend
  simp only [wlanApiGetHwaddr, hheader, htype, hbuf, hsum, hsend, Option.bind_eq_bind,
    Option.bind_some]
  cases sendPacket uart _ _ t with
  | none => rfl
  | some t => rfl

lemma wlanApiGetHwaddr_buffered {γ : Type} (object : Vector Byte (sizeofDefault + 2))
    (successCallback : Option γ) (api : WlanApi γ) (t : TxBuffer) (ht : t.gsTxPtr = 0) :
    ∃ t', wlanApiGetHwaddr bufferedUart (some object) successCallback api t =
        some (⟨wlanApiTypeGetHwaddr, successCallback⟩, t', 0) ∧ t'.gsTxPtr = 0 ∧
      t'.written = t.written ++ [lineFrame getHwaddrFrame] := by
  obtain ⟨t', hsend, hptr, hwritten⟩ := sendPacket_buffered (sealPayload getHwaddrFrame) t ht
  refine ⟨t', ?_, hptr, hwritten⟩
  rw [wlanApiGetHwaddr_eq]
  change sendPacket _ _ (sizeofDefault + 2) _ = _ at hsend
  rw [hsend, Option.map_some]

end EthoSlip
