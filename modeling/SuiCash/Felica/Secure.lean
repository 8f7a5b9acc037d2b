import SuiCash.Lib.Bytes
import SuiCash.Lib.Fallible
import SuiCash.Lib.Sealed
import SuiCash.Server.Schedule

/-!
# Secure messages of the vendored crate

`secure/primitives.rs` and `secure/des.rs` of `usb-poc/vendor/felica`, over the `des`
and `cbc` crates: the padding, DES-CBC under a zero IV, the command MAC and its check,
and the messages both sides put together from them.

The crates are a parameter that computes some keyed permutation and chains it
(`CipherCrates.Computes`).  Under that, all the messages are one thing, a sealed list
of blocks (`sealDes`), and `opens_iff` says what opens is what was sealed.
`decryptPayload_eq_ok_iff` and `decryptSecureResponseDes_eq_ok_iff` read it off for the
two messages of a card.
-/

namespace SuiCash.Felica

open Des Cipher Fallible Bytes
open Server (DesCrate stackedKey)

/-! ### The crates -/

/-- What is used of the `des` and `cbc` crates beside `DesCrate`: one block back, and
CBC without padding, `none` where the data is not whole blocks. -/
structure CipherCrates extends DesCrate where
  decryptBlock : (key : Block) → (block : Block) → Block
  cbcEncryptNoPadding : (key iv : Block) → List UInt8 → Option (List UInt8)
  cbcDecryptNoPadding : (key iv : Block) → List UInt8 → Option (List UInt8)

/-- The crates compute `cipher`, its EDE under a stacked key, and its CBC. -/
structure CipherCrates.Computes (crates : CipherCrates) (cipher : KeyedPerm Block Block) : Prop where
  encryptBlock_eq : ∀ key block, crates.encryptBlock key block = cipher.enc block key
  decryptBlock_eq : ∀ key block, crates.decryptBlock key block = cipher.dec block key
  ede3EncryptBlock_eq : ∀ k1 k2 k3 block, crates.ede3EncryptBlock (stackedKey k1 k2 k3) block
    = cipher.enc (cipher.dec (cipher.enc block k1) k2) k3
  ede3DecryptBlock_eq : ∀ k1 k2 k3 block, crates.ede3DecryptBlock (stackedKey k1 k2 k3) block
    = cipher.dec (cipher.enc (cipher.dec block k3) k2) k1
  cbcEncrypt_eq : ∀ key iv ps, crates.cbcEncryptNoPadding key iv (join ps)
    = some (join (cbcEnc xor8 (fun x => cipher.enc x key) iv ps))
  cbcDecrypt_eq : ∀ key iv cs, crates.cbcDecryptNoPadding key iv (join cs)
    = some (join (cbcDec xor8 (fun x => cipher.dec x key) iv cs))

inductive FelicaStandardError where
  | protocol (message : String)
  | secureSession (message : String)
  deriving DecidableEq

/-! ### `primitives.rs` -/

/-- Bytes up to the next whole block, each the number of them; a whole block is left. -/
def padToBlockSizePkcs7 (data : List UInt8) (blockSize : ℕ) : List UInt8 :=
  let remainder := data.length % blockSize
  if remainder ≠ 0 then
    let padLen := UInt8.ofNat (blockSize - remainder)
    data ++ List.replicate padLen.toNat padLen
  else data

def DES_BLOCK_SIZE : ℕ := 8

def DES_MAC_SIZE : ℕ := 8

def padToDesBlockSize (data : List UInt8) : List UInt8 := padToBlockSizePkcs7 data DES_BLOCK_SIZE

section Primitives

variable (crates : CipherCrates)

def encryptDesBlock (data key : Block) : Block := crates.encryptBlock key data

def decryptDesBlock (data key : Block) : Block := crates.decryptBlock key data

def encrypt3desBlock (data key1 key2 : Block) : Block :=
  crates.ede3EncryptBlock (stackedKey key1 key2 key1) data

def decrypt3desBlock (data key1 key2 : Block) : Block :=
  crates.ede3DecryptBlock (stackedKey key1 key2 key1) data

def encryptDesCbcZeroIv (data : List UInt8) (key : Block) : Except String (List UInt8) :=
  if data.length % DES_BLOCK_SIZE ≠ 0 then
    .error "secure command payload length must be multiple of 8 bytes"
  else match crates.cbcEncryptNoPadding key zeroBlock data with
    | none => .error "secure command payload length must be multiple of 8 bytes"
    | some out => .ok out

def decryptDesCbcZeroIv (data : List UInt8) (key : Block) : Except String (List UInt8) :=
  if data.length % DES_BLOCK_SIZE ≠ 0 then
    .error "authentication2 response length must be multiple of 8 bytes"
  else match crates.cbcDecryptNoPadding key zeroBlock data with
    | none => .error "authentication2 response length must be multiple of 8 bytes"
    | some out => .ok out

/-! ### The MAC -/

/-- `calculate_command_mac_des`; the guard on the length is the one under which
`payload.chunks(8)` has no short chunk. -/
def calculateCommandMacDes (commandCode : UInt8) (payload : List UInt8) : Except String Block :=
  match blocks payload with
  | none => .error "secure command payload must be multiple of 8 bytes"
  | some chunks =>
    let totalLength := 2 + payload.length + DES_MAC_SIZE
    if totalLength > 255 then .error "secure command payload exceeds maximum frame length"
    else .ok (chunks.foldl (encryptDesBlock crates) (macHeader (UInt8.ofNat totalLength) commandCode))

/-- `check_packet_mac_des`: the length of a whole number of blocks ends in `F8h` at most,
so adding two to its low byte does not overflow. -/
def checkPacketMacDes (data : List UInt8) (expectedResponseCode : UInt8) : Bool :=
  if data.length % DES_BLOCK_SIZE ≠ 0 ∨ data.length < DES_BLOCK_SIZE + DES_MAC_SIZE then false
  else
    match blocks (data.take (data.length - DES_MAC_SIZE)),
        copyFromSlice 8 (data.drop (data.length - DES_MAC_SIZE)) with
    | some payload, some mac =>
      let current := payload.reverse.foldl (decryptDesBlock crates) mac
      current = macHeader (UInt8.ofNat data.length + 2) expectedResponseCode
    | _, _ => false

/-! ### The messages -/

def AUTHENTICATION1_RESPONSE_CODE : UInt8 := 0x11

def AUTHENTICATION2_RESPONSE_CODE : UInt8 := 0x13

/-- What every message is made with: padded, the MAC appended, chained under the key. -/
def sealDes (code : UInt8) (payload : List UInt8) (key : Block) : Except String (List UInt8) := do
  let padded := padToDesBlockSize payload
  let mac ← calculateCommandMacDes crates code padded
  encryptDesCbcZeroIv crates (padded ++ mac.toList) key

def buildAuthentication2Payload (transactionNumber : UInt16) (transactionId : Vector UInt8 6)
    (idi pmi : Block) : List UInt8 :=
  toLeBytes transactionNumber ++ transactionId.toList ++ idi.toList ++ pmi.toList

def encryptAuthentication2Payload (payload : List UInt8) (sessionKey : Block) :
    Option (List UInt8) :=
  (sealDes crates 0x13 payload sessionKey).toOption

structure Authentication2Response where
  encryptedPayload : List UInt8
  deriving DecidableEq

def Authentication2Response.decryptPayload (response : Authentication2Response)
    (sessionKey : Block) : Except FelicaStandardError (List UInt8) := do
  let plaintext ← (decryptDesCbcZeroIv crates response.encryptedPayload sessionKey).mapError
    .secureSession
  if ¬ checkPacketMacDes crates plaintext 0x13 then
    .error (.secureSession "authentication2 response MAC verification failed")
  else if plaintext.length < DES_MAC_SIZE then
    .error (.protocol "authentication2 response payload too short")
  else .ok (plaintext.take (plaintext.length - DES_MAC_SIZE))

def TRANSACTION_NUMBER_SIZE : ℕ := 2

def TRANSACTION_ID_SIZE : ℕ := 6

def DES_SECURE_HEADER_SIZE : ℕ := TRANSACTION_NUMBER_SIZE + TRANSACTION_ID_SIZE

structure SecureResponseHeader where
  transactionNumber : UInt16
  transactionId : Vector UInt8 6
  deriving DecidableEq

structure SecureResponse where
  header : SecureResponseHeader
  payload : List UInt8
  deriving DecidableEq

/-- The transaction number and identifier at the head of a message of eight bytes or more. -/
def transactionHeader (data : List UInt8) : Option SecureResponseHeader :=
  match data with
  | b0 :: b1 :: _ =>
    (copyFromSlice 6 (data.extract TRANSACTION_NUMBER_SIZE DES_SECURE_HEADER_SIZE)).map fun tid =>
      ⟨fromLeBytes b0 b1, tid⟩
  | _ => none

/-- `SecureResponse::parse`; sixteen bytes hold the header. -/
def SecureResponse.parse (data : List UInt8) (responseCode : UInt8) :
    Except FelicaStandardError SecureResponse :=
  if data.length < DES_BLOCK_SIZE * 2 then
    .error (.protocol "secure response shorter than minimum encrypted payload")
  else if ¬ checkPacketMacDes crates data responseCode then
    .error (.secureSession "secure response MAC verification failed")
  else match transactionHeader data with
    | none => .error (.protocol "secure response shorter than minimum encrypted payload")
    | some header => .ok ⟨header, data.drop DES_SECURE_HEADER_SIZE⟩

structure DecryptedSecureResponse where
  transactionNumber : UInt16
  payload : List UInt8
  deriving DecidableEq

def stripDesResponseMac (payloadWithMac : List UInt8) : Except FelicaStandardError (List UInt8) :=
  if payloadWithMac.length < DES_MAC_SIZE then
    .error (.protocol "secure response payload shorter than MAC")
  else .ok (payloadWithMac.take (payloadWithMac.length - DES_MAC_SIZE))

def decryptSecureResponseDes (responseCode : UInt8) (expectedTransactionId : Vector UInt8 6)
    (key : Block) (encryptedData : List UInt8) :
    Except FelicaStandardError DecryptedSecureResponse := do
  let plaintext ← (decryptDesCbcZeroIv crates encryptedData key).mapError .protocol
  let parsed ← SecureResponse.parse crates plaintext responseCode
  if parsed.header.transactionId ≠ expectedTransactionId then
    .error (.secureSession "secure response transaction ID mismatch")
  else
    let payload ← stripDesResponseMac parsed.payload
    .ok ⟨parsed.header.transactionNumber, payload⟩

def MAX_PACKET_LEN : ℕ := 0xFF

/-- `frame_with_length_prefix`, the error's text apart. -/
def frameWithLengthPrefix (payload : List UInt8) : Option (List UInt8) :=
  let frameLen := payload.length + 1
  if frameLen > MAX_PACKET_LEN then none else some (UInt8.ofNat frameLen :: payload)

/-- The header and the payload of a message of a session. -/
def transactionPayload (transactionNumber : UInt16) (transactionId : Vector UInt8 6)
    (payload : List UInt8) : List UInt8 :=
  toLeBytes transactionNumber ++ transactionId.toList ++ payload

def buildSecureResponseFrameDes (responseCode : UInt8) (transactionNumber : UInt16)
    (transactionId : Vector UInt8 6) (encryptionKey : Block) (responsePayload : List UInt8) :
    Option (List UInt8) := do
  let payload := transactionPayload transactionNumber transactionId responsePayload
  let encrypted ← (sealDes crates responseCode payload encryptionKey).toOption
  frameWithLengthPrefix (responseCode :: encrypted)

end Primitives

/-! ### The authentication context -/

/-- `AuthenticationContext`: the same three keys as the server's. -/
structure AuthenticationContext where
  l : Block
  alpha : Block
  beta : Block
  deriving DecidableEq

namespace AuthenticationContext

variable (crates : CipherCrates)

def new (idm groupServiceKey userServiceKey : Block) : AuthenticationContext :=
  let l := xor8 groupServiceKey idm
  let alpha := encryptDesBlock crates userServiceKey l
  let beta := encryptDesBlock crates l alpha
  ⟨l, alpha, beta⟩

variable (context : AuthenticationContext)

def decryptChallenge1a (challenge1a : Block) : Block :=
  decrypt3desBlock crates challenge1a context.alpha context.l

def encryptChallenge1a (random1 : Block) : Block :=
  encrypt3desBlock crates random1 context.alpha context.l

def encryptChallenge1b (random1 : Block) : Block :=
  encrypt3desBlock crates random1 context.l context.beta

def encryptChallenge2a (random2 : Block) : Block :=
  encrypt3desBlock crates random2 context.l context.beta

/-- The comparison is constant-time; its value is equality. -/
def verifyChallenge1b (random1 challenge1b : Block) : Bool :=
  context.encryptChallenge1b crates random1 = challenge1b

def decryptChallenge2a (challenge2a : Block) : Block :=
  decrypt3desBlock crates challenge2a context.l context.beta

def encryptChallenge2b (random2 : Block) : Block :=
  encrypt3desBlock crates random2 context.alpha context.l

end AuthenticationContext

theorem decrypt3desBlock_encrypt3desBlock {crates : CipherCrates} {cipher : KeyedPerm Block Block}
    (std : crates.Computes cipher) (data key1 key2 : Block) :
    decrypt3desBlock crates (encrypt3desBlock crates data key1 key2) key1 key2 = data := by
  rw [decrypt3desBlock, encrypt3desBlock, std.ede3EncryptBlock_eq, std.ede3DecryptBlock_eq,
    cipher.dec_enc, cipher.enc_dec, cipher.dec_enc]

/-- A reader and a card under one context understand each other. -/
theorem AuthenticationContext.agree {crates : CipherCrates} {cipher : KeyedPerm Block Block}
    (std : crates.Computes cipher) (context : AuthenticationContext) (random1 random2 : Block) :
    context.decryptChallenge1a crates (context.encryptChallenge1a crates random1) = random1
      ∧ context.verifyChallenge1b crates random1 (context.encryptChallenge1b crates random1) = true
      ∧ context.decryptChallenge2a crates (context.encryptChallenge2a crates random2) = random2 :=
  ⟨decrypt3desBlock_encrypt3desBlock std random1 _ _, decide_eq_true rfl,
    decrypt3desBlock_encrypt3desBlock std random2 _ _⟩

/-- `generate_service_keys_des`: the Area keys folded into the group key, then the
Service keys into the user key. -/
def generateServiceKeysDes (crates : CipherCrates) (systemKey : Block)
    (areaKeys serviceKeys : List Block) : Block × Block :=
  let groupServiceKey := areaKeys.foldl (encryptDesBlock crates) systemKey
  let userServiceKey := serviceKeys.foldl (encryptDesBlock crates) groupServiceKey
  (groupServiceKey, userServiceKey)

/-! ### Padding -/

theorem padToDesBlockSize_of_mod {data : List UInt8} (h : data.length % 8 = 0) :
    padToDesBlockSize data = data := by
  rw [padToDesBlockSize, padToBlockSizePkcs7]
  exact if_neg (not_not.mpr h)

theorem padToDesBlockSize_length (data : List UInt8) :
    (padToDesBlockSize data).length = 8 * ((data.length + 7) / 8) := by
  by_cases h : data.length % 8 = 0
  · rw [padToDesBlockSize_of_mod h]
    omega
  · have hpad : (UInt8.ofNat (8 - data.length % 8)).toNat = 8 - data.length % 8 := by
      rw [UInt8.toNat_ofNat']
      omega
    have hif : padToDesBlockSize data
        = data ++ List.replicate (UInt8.ofNat (8 - data.length % 8)).toNat
          (UInt8.ofNat (8 - data.length % 8)) := if_pos h
    rw [hif, List.length_append, List.length_replicate, hpad]
    omega

theorem exists_join_pad (data : List UInt8) :
    ∃ ps, padToDesBlockSize data = join ps ∧ ps.length = (data.length + 7) / 8 := by
  have hlen := padToDesBlockSize_length data
  obtain ⟨ps, hps⟩ := (exists_join_iff (padToDesBlockSize data)).mpr (by omega)
  refine ⟨ps, hps, ?_⟩
  rw [hps, join_length] at hlen
  omega

theorem padToDesBlockSize_join (ps : List Block) : padToDesBlockSize (join ps) = join ps :=
  padToDesBlockSize_of_mod (by rw [join_length]; omega)

/-! ### The header of a transaction -/

@[simp] theorem transactionPayload_length (n : UInt16) (tid : Vector UInt8 6) (payload : List UInt8) :
    (transactionPayload n tid payload).length = 8 + payload.length := by
  simp [transactionPayload, toLeBytes]
  omega

theorem drop_transactionPayload (n : UInt16) (tid : Vector UInt8 6) (payload : List UInt8) :
    (transactionPayload n tid payload).drop DES_SECURE_HEADER_SIZE = payload := by
  rw [transactionPayload]
  exact List.drop_left' (by simp [toLeBytes, DES_SECURE_HEADER_SIZE, TRANSACTION_NUMBER_SIZE,
    TRANSACTION_ID_SIZE])

/-- **A header is read exactly where one is written.** -/
theorem transactionHeader_eq_some_iff {data : List UInt8} {n : UInt16} {tid : Vector UInt8 6} :
    transactionHeader data = some ⟨n, tid⟩ ↔ ∃ rest, data = transactionPayload n tid rest := by
  constructor
  · intro h
    match data, h with
    | b0 :: b1 :: rest, h =>
      rw [transactionHeader, Option.map_eq_some_iff] at h
      obtain ⟨tid', htid, heq⟩ := h
      obtain ⟨rfl, rfl⟩ := SecureResponseHeader.mk.inj heq
      rw [copyFromSlice] at htid
      by_cases hlen : ((b0 :: b1 :: rest).extract TRANSACTION_NUMBER_SIZE
          DES_SECURE_HEADER_SIZE).length = 6
      · rw [dif_pos hlen, Option.some.injEq] at htid
        subst htid
        refine ⟨rest.drop 6, ?_⟩
        rw [transactionPayload, toLeBytes_fromLeBytes]
        show b0 :: b1 :: rest = [b0, b1] ++ rest.take 6 ++ rest.drop 6
        rw [List.append_assoc, List.take_append_drop]
        rfl
      · rw [dif_neg hlen] at htid
        cases htid
  · rintro ⟨rest, rfl⟩
    have hn : toLeBytes n = [UInt8.ofNat n.toNat, UInt8.ofNat (n.toNat / 256)] := rfl
    have htid : (UInt8.ofNat n.toNat :: UInt8.ofNat (n.toNat / 256) :: (tid.toList ++ rest)).extract
        TRANSACTION_NUMBER_SIZE DES_SECURE_HEADER_SIZE = tid.toList :=
      List.take_left' (by simp [DES_SECURE_HEADER_SIZE, TRANSACTION_NUMBER_SIZE, TRANSACTION_ID_SIZE])
    rw [transactionPayload, hn, List.append_assoc, List.cons_append, List.cons_append,
      List.nil_append, transactionHeader, htid, copyFromSlice_toList, fromLeBytes_eq_iff.mpr hn]
    rfl

/-! ### Sealing and opening -/

/-- The header block for a message of `n` blocks. -/
def macStart (code : UInt8) (n : ℕ) : Block := macHeader (UInt8.ofNat (2 + 8 * n + 8)) code

/-- A message of a session in blocks, sealed. -/
def sealed (cipher : KeyedPerm Block Block) (code : UInt8) (key : Block) (ps : List Block) :
    List UInt8 :=
  join (sealBlocks cipher xor8 zeroBlock (macStart code) key ps)

@[simp] theorem sealed_length (cipher : KeyedPerm Block Block) (code : UInt8) (key : Block)
    (ps : List Block) : (sealed cipher code key ps).length = 8 * (ps.length + 1) := by
  rw [sealed, join_length, sealBlocks_length]

/-- The code is under the MAC, so what is sealed alike is one message whatever the codes. -/
theorem sealed_inj {cipher : KeyedPerm Block Block} {code code' : UInt8} {key : Block}
    {ps qs : List Block} (h : sealed cipher code key ps = sealed cipher code' key qs) : ps = qs :=
  sealBlocks_inj xor8_xor8 (join_inj h)

theorem join_concat (ps : List Block) (mac : Block) :
    join (ps ++ [mac]) = join ps ++ mac.toList := by
  simp [join]

section Messages

variable {crates : CipherCrates} {cipher : KeyedPerm Block Block} (std : crates.Computes cipher)
include std

theorem CipherCrates.Computes.encryptDesBlock_eq : encryptDesBlock crates = cipher.enc :=
  funext fun data => funext fun key => std.encryptBlock_eq key data

theorem CipherCrates.Computes.decryptDesBlock_eq : decryptDesBlock crates = cipher.dec :=
  funext fun data => funext fun key => std.decryptBlock_eq key data

theorem encryptDesCbcZeroIv_join (ps : List Block) (key : Block) :
    encryptDesCbcZeroIv crates (join ps) key
      = .ok (join (cbcEnc xor8 (fun x => cipher.enc x key) zeroBlock ps)) := by
  have h : ¬ (join ps).length % DES_BLOCK_SIZE ≠ 0 := by
    rw [join_length, DES_BLOCK_SIZE]
    omega
  rw [encryptDesCbcZeroIv, if_neg h, std.cbcEncrypt_eq]

theorem decryptDesCbcZeroIv_join (cs : List Block) (key : Block) :
    decryptDesCbcZeroIv crates (join cs) key
      = .ok (join (cbcDec xor8 (fun x => cipher.dec x key) zeroBlock cs)) := by
  have h : ¬ (join cs).length % DES_BLOCK_SIZE ≠ 0 := by
    rw [join_length, DES_BLOCK_SIZE]
    omega
  rw [decryptDesCbcZeroIv, if_neg h, std.cbcDecrypt_eq]

/-- The MAC of whole blocks, as long as the frame they make has a length byte. -/
theorem calculateCommandMacDes_join (code : UInt8) (ps : List Block) :
    calculateCommandMacDes crates code (join ps) =
      if 2 + 8 * ps.length + 8 > 255 then
        .error "secure command payload exceeds maximum frame length"
      else .ok (chainMac cipher (macStart code) ps) := by
  rw [calculateCommandMacDes, blocks_join, std.encryptDesBlock_eq, chainMac, macStart]
  dsimp only
  rw [join_length, DES_MAC_SIZE]

/-- **Sealing in block form.** -/
theorem sealDes_eq (code : UInt8) {payload : List UInt8} {ps : List Block}
    (hps : padToDesBlockSize payload = join ps) (key : Block) :
    sealDes crates code payload key =
      if 2 + 8 * ps.length + 8 > 255 then
        .error "secure command payload exceeds maximum frame length"
      else .ok (sealed cipher code key ps) := by
  rw [sealDes, hps, calculateCommandMacDes_join std]
  by_cases h : 2 + 8 * ps.length + 8 > 255
  · rw [if_pos h, if_pos h]
    rfl
  · rw [if_neg h, if_neg h, ok_bind, ← join_concat, encryptDesCbcZeroIv_join std]
    rfl

/-- The check of a message in block form: the last block is the MAC of the others. -/
theorem checkPacketMacDes_join (code : UInt8) (ps : List Block) (mac : Block) :
    checkPacketMacDes crates (join (ps ++ [mac])) code = true
      ↔ ps ≠ [] ∧ mac = chainMac cipher (macStart code) ps := by
  have hlen : (join (ps ++ [mac])).length = 8 * ps.length + 8 := by
    rw [join_length, List.length_append, List.length_singleton]
    omega
  have htake : (join (ps ++ [mac])).take (8 * ps.length + 8 - DES_MAC_SIZE) = join ps := by
    rw [join_concat, DES_MAC_SIZE, Nat.add_sub_cancel]
    exact List.take_left' (join_length ps)
  have hdrop : (join (ps ++ [mac])).drop (8 * ps.length + 8 - DES_MAC_SIZE) = mac.toList := by
    rw [join_concat, DES_MAC_SIZE, Nat.add_sub_cancel]
    exact List.drop_left' (join_length ps)
  have hbyte : UInt8.ofNat (8 * ps.length + 8) + 2 = UInt8.ofNat (2 + 8 * ps.length + 8) := by
    rw [show (2 : UInt8) = UInt8.ofNat 2 from rfl, ← UInt8.ofNat_add, Nat.add_comm _ 2, Nat.add_assoc]
  rw [checkPacketMacDes, hlen, htake, hdrop, blocks_join, copyFromSlice_toList, hbyte,
    std.decryptDesBlock_eq]
  cases ps with
  | nil => simp [DES_BLOCK_SIZE, DES_MAC_SIZE]
  | cons p ps =>
    have hif : ¬ ((8 * (p :: ps).length + 8) % DES_BLOCK_SIZE ≠ 0
        ∨ 8 * (p :: ps).length + 8 < DES_BLOCK_SIZE + DES_MAC_SIZE) := by
      simp only [DES_BLOCK_SIZE, DES_MAC_SIZE, List.length_cons]
      omega
    rw [if_neg hif]
    dsimp only
    rw [decide_eq_true_iff, List.foldl_reverse, ← macStart, ← foldr_dec_eq_header_iff]
    simp

/-- **What opens was sealed**: a ciphertext decrypts to something whose MAC is right
exactly when it is some blocks sealed, and what it decrypts to is those and their MAC. -/
theorem opens_iff {code : UInt8} {key : Block} {ct plaintext : List UInt8} :
    (decryptDesCbcZeroIv crates ct key = .ok plaintext
        ∧ checkPacketMacDes crates plaintext code = true)
      ↔ ∃ ps ≠ [], ct = sealed cipher code key ps
        ∧ plaintext = join ps ++ (chainMac cipher (macStart code) ps).toList := by
  constructor
  · rintro ⟨hdec, hmac⟩
    have hmod : ct.length % 8 = 0 := by
      by_contra h
      rw [decryptDesCbcZeroIv, if_pos (show ct.length % DES_BLOCK_SIZE ≠ 0 from h)] at hdec
      cases hdec
    obtain ⟨cs, rfl⟩ := (exists_join_iff ct).mpr hmod
    rw [decryptDesCbcZeroIv_join std, Except.ok.injEq] at hdec
    subst hdec
    rcases List.eq_nil_or_concat (cbcDec xor8 (fun x => cipher.dec x key) zeroBlock cs)
      with hnil | ⟨ps, mac, hms⟩
    · rw [hnil] at hmac
      cases hmac
    · rw [hms, List.concat_eq_append, checkPacketMacDes_join std] at hmac
      obtain ⟨hne, rfl⟩ := hmac
      refine ⟨ps, hne, ?_, ?_⟩
      · rw [sealed, sealBlocks, ← List.concat_eq_append, ← hms,
          cbcEnc_cbcDec xor8_xor8 fun x => cipher.enc_dec x key]
      · rw [hms, List.concat_eq_append, join_concat]
  · rintro ⟨ps, hne, rfl, rfl⟩
    rw [sealed, decryptDesCbcZeroIv_join std, cbcDec_sealBlocks xor8_xor8, ← join_concat,
      checkPacketMacDes_join std]
    exact ⟨rfl, hne, rfl⟩

/-- **AUTH2 opens exactly when it was sealed**: what `decrypt_payload` returns is the blocks
whose sealing the response carries. -/
theorem decryptPayload_eq_ok_iff {response : Authentication2Response} {key : Block}
    {payload : List UInt8} :
    response.decryptPayload crates key = .ok payload
      ↔ ∃ ps ≠ [], payload = join ps ∧ response.encryptedPayload = sealed cipher 0x13 key ps := by
  have htake : ∀ ps : List Block, ∀ mac : Block,
      (join ps ++ mac.toList).take ((join ps ++ mac.toList).length - DES_MAC_SIZE) = join ps := by
    intro ps mac
    rw [List.length_append, Vector.length_toList, DES_MAC_SIZE, Nat.add_sub_cancel]
    exact List.take_left' rfl
  rw [Authentication2Response.decryptPayload, bind_eq_ok]
  simp only [mapError_eq_ok]
  constructor
  · rintro ⟨plaintext, hdec, h⟩
    rw [guard_eq_ok, guard_eq_ok, not_not] at h
    obtain ⟨hmac, -, h⟩ := h
    obtain ⟨ps, hne, hct, rfl⟩ := (opens_iff std).mp ⟨hdec, hmac⟩
    exact ⟨ps, hne, by rw [← Except.ok.inj h, htake], hct⟩
  · rintro ⟨ps, hne, rfl, hct⟩
    obtain ⟨hdec, hmac⟩ := (opens_iff std).mpr ⟨ps, hne, hct, rfl⟩
    refine ⟨_, hdec, ?_⟩
    rw [guard_eq_ok, guard_eq_ok, not_not]
    refine ⟨hmac, ?_, congrArg Except.ok (htake ps _)⟩
    rw [List.length_append, Vector.length_toList, DES_MAC_SIZE]
    omega

/-- **A response opens exactly when it was sealed** for that transaction: with its number and
payload, under the expected identifier. -/
theorem decryptSecureResponseDes_eq_ok_iff {code : UInt8} {tid : Vector UInt8 6} {key : Block}
    {ct : List UInt8} {r : DecryptedSecureResponse} :
    decryptSecureResponseDes crates code tid key ct = .ok r
      ↔ ∃ ps, transactionPayload r.transactionNumber tid r.payload = join ps
        ∧ ct = sealed cipher code key ps := by
  rw [decryptSecureResponseDes, bind_eq_ok]
  simp only [mapError_eq_ok, bind_eq_ok]
  constructor
  · rintro ⟨plaintext, hdec, parsed, hparse, h⟩
    rw [SecureResponse.parse, guard_eq_ok, guard_eq_ok, not_not] at hparse
    obtain ⟨-, hmac, hparse⟩ := hparse
    rw [guard_eq_ok, not_not] at h
    obtain ⟨htid, h⟩ := h
    obtain ⟨payload, hstrip, h⟩ := bind_eq_ok.mp h
    obtain ⟨ps, hne, hct, rfl⟩ := (opens_iff std).mp ⟨hdec, hmac⟩
    cases hheader : transactionHeader (join ps ++ (chainMac cipher (macStart code) ps).toList) with
    | none => rw [hheader] at hparse; cases hparse
    | some header =>
      rw [hheader] at hparse
      obtain rfl := Except.ok.inj hparse
      obtain rfl := Except.ok.inj h
      obtain ⟨rest, hdata⟩ := transactionHeader_eq_some_iff.mp hheader
      rw [stripDesResponseMac, guard_eq_ok, Except.ok.injEq] at hstrip
      obtain ⟨p, qs, rfl⟩ := List.exists_cons_of_ne_nil hne
      have hp : p.toList.length = 8 := by simp
      have hdrop : (join (p :: qs) ++ (chainMac cipher (macStart code) (p :: qs)).toList).drop
          DES_SECURE_HEADER_SIZE
            = join qs ++ (chainMac cipher (macStart code) (p :: qs)).toList := by
        rw [join_cons, List.append_assoc]
        exact List.drop_left' hp
      have hpayload : payload = join qs := by
        rw [← hstrip.2, hdrop, List.length_append, Vector.length_toList, DES_MAC_SIZE,
          Nat.add_sub_cancel]
        exact List.take_left' rfl
      refine ⟨p :: qs, ?_, hct⟩
      -- the header is the first block, what is left of the message the others
      rw [transactionPayload] at hdata
      rw [transactionPayload, hpayload, join_cons, ← htid]
      rw [join_cons, List.append_assoc] at hdata
      rw [(List.append_inj hdata (by simp [toLeBytes])).1]
  · rintro ⟨ps, hps, hct⟩
    have hne : ps ≠ [] := by
      rintro rfl
      have hlen := congrArg List.length hps
      rw [transactionPayload_length, join_length] at hlen
      simp at hlen
    obtain ⟨hdec, hmac⟩ := (opens_iff std).mpr ⟨ps, hne, hct, rfl⟩
    have hdata : join ps ++ (chainMac cipher (macStart code) ps).toList
        = transactionPayload r.transactionNumber tid
          (r.payload ++ (chainMac cipher (macStart code) ps).toList) := by
      rw [← hps, transactionPayload, transactionPayload, List.append_assoc]
    refine ⟨_, hdec, ⟨⟨r.transactionNumber, tid⟩,
      r.payload ++ (chainMac cipher (macStart code) ps).toList⟩, ?_, ?_⟩
    · rw [SecureResponse.parse, guard_eq_ok, guard_eq_ok, not_not]
      refine ⟨?_, hmac, ?_⟩
      · rw [hdata, transactionPayload_length, List.length_append, Vector.length_toList,
          DES_BLOCK_SIZE]
        omega
      · rw [transactionHeader_eq_some_iff.mpr ⟨_, hdata⟩]
        dsimp only
        rw [hdata, drop_transactionPayload]
    · have hlen : (r.payload ++ (chainMac cipher (macStart code) ps).toList).length
          = r.payload.length + DES_MAC_SIZE := by
        rw [List.length_append, Vector.length_toList, DES_MAC_SIZE]
      rw [guard_eq_ok, not_not]
      refine ⟨rfl, bind_eq_ok.mpr ⟨r.payload, ?_, rfl⟩⟩
      rw [stripDesResponseMac, guard_eq_ok, hlen, Nat.add_sub_cancel]
      exact ⟨by omega, congrArg Except.ok (List.take_left' rfl)⟩

end Messages

end SuiCash.Felica
