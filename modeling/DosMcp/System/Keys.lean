/-
  DosMcp.System.Keys — the keys and the MAC that both peers compute for themselves.

  - `dmXteaEncrypt_eq`: the 32-bit words of the DOS agent wrap where the Python host masks;
    shifts and sums that Python leaves unmasked agree below bit 32.
  - `session_keys_agree`: so both derive the same session key, and it tells pairs of nonces apart.
  - `password_keys_agree`: both derive the same key from a password, the SHA-256 of the DOS
    agent being taken in pieces of any length.
  - `packet_macs_agree`: the MAC fed byte by byte is the MAC of the padded message.
-/

import DosMcp.Dos.ProtoProofs
import DosMcp.Dos.Sha
import DosMcp.Protocol.CryptoProofs
import DosMcp.Protocol.MacProofs
import DosMcp.System.Credentials

namespace DosMcp.Dos

open Lib

/-! ## XTEA -/

/-- The words of the state as the integers of the Python loop. -/
def DmXtea.values (s : DmXtea) : XteaState := ⟨s.left.toNat, s.right.toNat, s.sum.toNat⟩

/-- The mix of a half agrees below bit 32, whatever the sum has above it. -/
theorem mixWord_toNat (x word : UInt32) {sum : Nat} (hsum : word.toNat = sum % 2 ^ 32) :
    ((((x <<< 4) ^^^ (x >>> 5)) + x) ^^^ word).toNat = xteaMix x.toNat sum % 2 ^ 32 := by
  have hx := x.toNat_lt
  have hshift : x.toNat >>> 5 % 2 ^ 32 = x.toNat >>> 5 := by
    rw [Nat.shiftRight_eq_div_pow]
    exact Nat.mod_eq_of_lt (by omega)
  have hxor : ((x <<< 4) ^^^ (x >>> 5)).toNat = (x.toNat <<< 4 ^^^ x.toNat >>> 5) % 2 ^ 32 := by
    rw [UInt32.toNat_xor, UInt32.toNat_shiftLeft, UInt32.toNat_shiftRight, Nat.xor_mod_two_pow, hshift]
    rfl
  rw [UInt32.toNat_xor, UInt32.toNat_add, hxor, hsum, Nat.mod_add_mod, xteaMix, ← Nat.xor_mod_two_pow]

theorem getD_map_word (l : List UInt32) (i : Nat) : (l.map UInt32.toNat).getD i 0 = (l.getD i 0).toNat := by
  simp only [List.getD_eq_getElem?_getD, List.getElem?_map]
  cases l[i]? <;> rfl

theorem dmXteaRound_values (words : List UInt32) (s : DmXtea) :
    (dmXteaRound words s).values = xteaRound (words.map UInt32.toNat) s.values := by
  obtain ⟨left, right, sum⟩ := s
  have hfirst : ((sum &&& 3).toNat : Nat) = sum.toNat &&& 3 := UInt32.toNat_and sum 3
  have hsum : (sum + 0x9E3779B9).toNat = (sum.toNat + xteaDelta) &&& 0xFFFFFFFF := by
    rw [UInt32.toNat_add, and_mask32]
    rfl
  have hsecond : ∀ t : UInt32, ((t >>> 11) &&& 3).toNat = (t.toNat >>> 11) &&& 3 := by
    intro t
    rw [UInt32.toNat_and, UInt32.toNat_shiftRight]
    rfl
  have hhalf : ∀ (half x word : UInt32) {total : Nat}, word.toNat = total % 2 ^ 32 →
      (half + ((((x <<< (4 : UInt32)) ^^^ (x >>> (5 : UInt32))) + x) ^^^ word)).toNat = (half.toNat + xteaMix x.toNat total) &&& 0xFFFFFFFF := by
    intro half x word total hword
    rw [UInt32.toNat_add, mixWord_toNat x word hword, and_mask32, Nat.add_mod_mod]
  have hleft := hhalf left right (sum + words.getD (sum &&& 3).toNat 0) (UInt32.toNat_add _ _)
  have hright : ∀ left total : UInt32, _ := fun left total =>
    hhalf right left (total + words.getD ((total >>> 11) &&& 3).toNat 0) (UInt32.toNat_add _ _)
  simp only [dmXteaRound, DmXtea.values, xteaRound, getD_map_word]
  rw [hright, hleft, hsecond, hsum, hfirst]

theorem dmXteaRounds_values (words : List UInt32) (n : Nat) (s : DmXtea) :
    ((dmXteaRound words)^[n] s).values = (xteaRound (words.map UInt32.toNat))^[n] s.values := by
  induction n generalizing s with
  | zero => rfl
  | succ n ih => rw [Function.iterate_succ_apply, Function.iterate_succ_apply, ih, dmXteaRound_values]

theorem dmXteaEncrypt_eq {block key : Bytes} (hblock : block.length = 8) (hkey : key.length = 16) :
    dmXteaEncrypt block key = xteaEncrypt block key := by
  have hwords : [dmGetU32 key 0, dmGetU32 key 4, dmGetU32 key 8, dmGetU32 key 12].map UInt32.toNat = keyWords key := by
    simp only [List.map_cons, List.map_nil, keyWords]
    rw [dmGetU32_toNat (by omega), dmGetU32_toNat (by omega), dmGetU32_toNat (by omega), dmGetU32_toNat (by omega)]
  have hstart : DmXtea.values ⟨dmGetU32 block 0, dmGetU32 block 4, 0⟩ = ⟨leNat (slice block 0 4), leNat (slice block 4 4), 0⟩ := by
    rw [DmXtea.values, dmGetU32_toNat (by omega), dmGetU32_toNat (by omega)]
    rfl
  have hrounds := dmXteaRounds_values [dmGetU32 key 0, dmGetU32 key 4, dmGetU32 key 8, dmGetU32 key 12] 32
    ⟨dmGetU32 block 0, dmGetU32 block 4, 0⟩
  rw [hwords, hstart] at hrounds
  simp only [dmXteaEncrypt, xteaEncrypt, dmPutU32_eq, ← hrounds]
  rfl

/-! ## Session keys -/

theorem dmDeriveSessionKey_eq (key : Key) (clientNonce serverNonce : UInt32) :
    dmDeriveSessionKey key.bytes clientNonce serverNonce = (deriveSessionKey key clientNonce.toNat serverNonce.toNat).bytes := by
  have hmask : ∀ nonce : UInt32, nonce.toNat &&& 0xFFFFFFFF = nonce.toNat := by
    intro nonce
    rw [and_mask32, Nat.mod_eq_of_lt nonce.toNat_lt]
  have hfirst : dmPutU32 clientNonce ++ dmPutU32 serverNonce =
      leBytes 4 (clientNonce.toNat &&& 0xFFFFFFFF) ++ leBytes 4 (serverNonce.toNat &&& 0xFFFFFFFF) := by
    rw [hmask, hmask, dmPutU32_eq, dmPutU32_eq]
  have hsecond : dmPutU32 (serverNonce ^^^ 0xA5A5A5A5) ++ dmPutU32 (clientNonce ^^^ 0x5A5A5A5A) =
      leBytes 4 (serverNonce.toNat ^^^ 0xA5A5A5A5) ++ leBytes 4 (clientNonce.toNat ^^^ 0x5A5A5A5A) := by
    rw [dmPutU32_eq, dmPutU32_eq, UInt32.toNat_xor, UInt32.toNat_xor]
    rfl
  rw [dmDeriveSessionKey, hfirst, hsecond, dmXteaEncrypt_eq (by simp) key.length_eq, dmXteaEncrypt_eq (by simp) key.length_eq]
  rfl

/-- Both peers derive the same session key from a base key and two nonces, and no other pair of
    nonces gives it. -/
theorem session_keys_agree (key : Key) :
    (∀ clientNonce serverNonce : UInt32, dmDeriveSessionKey key.bytes clientNonce serverNonce =
      (deriveSessionKey key clientNonce.toNat serverNonce.toNat).bytes) ∧
    ∀ c n c' n' : Nat, c < 2 ^ 32 → n < 2 ^ 32 → c' < 2 ^ 32 → n' < 2 ^ 32 → (c, n) ≠ (c', n') →
      deriveSessionKey key c n ≠ deriveSessionKey key c' n' := by
  refine ⟨dmDeriveSessionKey_eq key, ?_⟩
  intro c n c' n' hc hn hc' hn' hne heq
  obtain ⟨hclient, hserver⟩ := deriveSessionKey_nonces heq
  rw [Nat.mod_eq_of_lt hc, Nat.mod_eq_of_lt hc'] at hclient
  rw [Nat.mod_eq_of_lt hn, Nat.mod_eq_of_lt hn'] at hserver
  exact hne (by rw [hclient, hserver])

theorem session_keys_agree_vector :
    dmDeriveSessionKey vectorKey.bytes 1 2 = (deriveSessionKey vectorKey 1 2).bytes ∧
      deriveSessionKey vectorKey 1 2 ≠ deriveSessionKey vectorKey 2 1 :=
  ⟨(session_keys_agree vectorKey).1 1 2,
    (session_keys_agree vectorKey).2 1 2 2 1 (by decide) (by decide) (by decide) (by decide) (by decide)⟩

/-! ## Passwords -/

theorem passwordDomain_eq : literal "DOS-MCP credential v1" = passwordDomain := rfl

/-- A message taken in pieces. -/
theorem dmShaUpdates_fed (pieces : List Bytes) {context : DmSha} {message : Bytes} (h : context.Fed message)
    (hpieces : ∀ piece ∈ pieces, piece.length < 2 ^ 16) : (pieces.foldl dmShaUpdate context).Fed (message ++ pieces.flatten) := by
  induction pieces generalizing context message with
  | nil =>
    rw [List.flatten_nil, List.append_nil]
    exact h
  | cons piece pieces ih =>
    have hpiece := dmShaUpdate_fed h (hpieces piece List.mem_cons_self)
    rw [List.flatten_cons, ← List.append_assoc]
    exact ih hpiece fun p hp => hpieces p (List.mem_cons_of_mem piece hp)

/-- The DOS agent derives the first 16 bytes of the SHA-256 of the domain, a zero and the
    password, as the Python host does; its SHA-256 is right for a message of any length taken
    in pieces of any lengths. -/
theorem password_keys_agree :
    (∀ password : Bytes, password.length ≤ 65535 → dmDerivePasswordKey password =
      (Sha256.sha256 (asciiBytes "DOS-MCP credential v1" ++ [0] ++ password)).take 16) ∧
    (∀ (h : Host) (text : String), (∀ data, h.sha256 data = Sha256.sha256 data) → 1 ≤ text.toUTF8.toList.length →
      text.toUTF8.toList.length ≤ 65535 →
        (derivePasswordKey h text).map Key.bytes = .ok (dmDerivePasswordKey text.toUTF8.toList)) ∧
    ∀ pieces : List Bytes, (∀ piece ∈ pieces, piece.length ≤ 65535) → pieces.flatten.length < 2 ^ 32 →
      dmShaFinal (pieces.foldl dmShaUpdate dmShaInit) = Sha256.sha256 pieces.flatten := by
  refine ⟨?_, ?_, ?_⟩
  · intro password hlength
    exact dmDerivePasswordKey_eq (Nat.lt_succ_of_le hlength)
  · intro h text hsha hpos hlength
    have hne : text ≠ "" := by
      rintro rfl
      rw [byteArray_toList] at hpos
      exact absurd hpos (by decide)
    rw [derivePasswordKey, if_neg hne, dmDerivePasswordKey_eq (Nat.lt_succ_of_le hlength), passwordDomain_eq, ← hsha]
    rfl
  · intro pieces hpieces hlength
    have hfed := dmShaUpdates_fed pieces dmShaInit_fed fun piece hpiece => Nat.lt_succ_of_le (hpieces piece hpiece)
    exact dmShaFinal_eq hfed hlength

theorem password_keys_agree_word :
    dmDerivePasswordKey [0x61, 0x62] = (Sha256.sha256 (asciiBytes "DOS-MCP credential v1" ++ [0] ++ [0x61, 0x62])).take 16 ∧
      (derivePasswordKey hashingHost "ab").map Key.bytes = .ok (dmDerivePasswordKey "ab".toUTF8.toList) ∧
      dmShaFinal ([[0x61], [0x62]].foldl dmShaUpdate dmShaInit) = Sha256.sha256 [0x61, 0x62] := by
  have hword : "ab".toUTF8.toList.length = 2 := by
    rw [byteArray_toList]
    rfl
  exact ⟨password_keys_agree.1 [0x61, 0x62] (by decide),
    password_keys_agree.2.1 hashingHost "ab" (fun _ => rfl) (by rw [hword]; decide) (by rw [hword]; decide),
    password_keys_agree.2.2 [[0x61], [0x62]] (by decide) (by decide)⟩

/-! ## The MAC -/

theorem dmSpeck32Expand_length (key : Bytes) : (dmSpeck32Expand key).length = 22 := by
  have hkeys : dmSpeck32Expand key = (expandAt key 21).roundKeys := rfl
  rw [hkeys, expandAt_roundKeys, List.length_map, List.length_range]

/-- The round keys expanded once are those the Python cipher makes as it goes. -/
theorem dmSpeck32Expand_toNat {key : Bytes} (hkey : 8 ≤ key.length) {i : Nat} (hi : i < 22) :
    ((dmSpeck32Expand key).getD i 0).toNat = (speckKeyAt key i).1 := by
  have hblock : ([0, 0, 0, 0] : Bytes).length = 4 := rfl
  obtain ⟨-, -, hschedule⟩ := speck_simulation hblock hkey i hi.le
  have hround : (speckAt [0, 0, 0, 0] key i).roundKey = (speckKeyAt key i).1 := by rw [speckAt, speckRounds_eq]
  rw [dmSpeck32Expand_getD key hi, ← (hschedule (by omega)).1, hround]

/-- The MAC that the DOS agent feeds byte by byte is the MAC of the Python host; the round
    keys are the same, and so is the cipher on every block. -/
theorem packet_macs_agree :
    (∀ (key : Key) (data : Bytes), data.length ≤ 65535 → (dmPacketMac data key.bytes).toNat = packetMac data key) ∧
    ∀ key : Bytes, key.length = 8 →
      (dmSpeck32Expand key).map UInt16.toNat = (List.range 22).map (fun i => (speckKeyAt key i).1) ∧
        ∀ block : Bytes, block.length = 4 → dmSpeck32Encrypt block (dmSpeck32Expand key) = speck32Encrypt block key := by
  refine ⟨fun key data hlength => dmPacketMac_toNat (Nat.lt_succ_of_le hlength) key, ?_⟩
  intro key hkey
  refine ⟨?_, fun block hblock => dmSpeck32Encrypt_eq hblock hkey.ge⟩
  apply List.ext_getElem
  · rw [List.length_map, List.length_map, dmSpeck32Expand_length, List.length_range]
  · intro i hi _
    rw [List.length_map, dmSpeck32Expand_length] at hi
    have hword := dmSpeck32Expand_toNat hkey.ge hi
    rw [List.getD_eq_getElem?_getD, List.getElem?_eq_getElem (by rwa [dmSpeck32Expand_length]), Option.getD_some] at hword
    rw [List.getElem_map, List.getElem_map, List.getElem_range, hword]

theorem packet_macs_agree_vector :
    (dmPacketMac [1, 2, 3, 4, 5] vectorKey.bytes).toNat = packetMac [1, 2, 3, 4, 5] vectorKey ∧
      (dmSpeck32Expand (vectorKey.bytes.take 8)).map UInt16.toNat =
        (List.range 22).map fun i => (speckKeyAt (vectorKey.bytes.take 8) i).1 :=
  ⟨packet_macs_agree.1 vectorKey [1, 2, 3, 4, 5] (by decide), (packet_macs_agree.2 (vectorKey.bytes.take 8) rfl).1⟩

end DosMcp.Dos
