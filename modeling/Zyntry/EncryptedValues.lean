import Zyntry.Base64
import Zyntry.PythonText

/-!
# Encrypted values

A secret is stored as a text of four parts: a prefix, the nonce, the tag and the ciphertext of
AES-GCM. A stored text is read back by the key that it was encrypted with, also after it was
rotated through any number of other keys.
-/

namespace Python

/-- `s.split(sep, n)`. -/
def splitMax (sep : Char) : ℕ → List Char → List (List Char)
  | 0, cs => [cs]
  | n + 1, cs =>
      if cs.contains sep then
        cs.takeWhile (· ≠ sep) :: splitMax sep n ((cs.dropWhile (· ≠ sep)).drop 1)
      else [cs]

theorem splitMax_append {sep : Char} {part : List Char} (h : sep ∉ part) (n : ℕ)
    (cs : List Char) :
    splitMax sep (n + 1) (part ++ sep :: cs) = part :: splitMax sep n cs := by
  have hne : ∀ c ∈ part, decide (c ≠ sep) = true := fun c hc => by
    rw [decide_eq_true_eq]
    rintro rfl
    exact h hc
  rw [splitMax, if_pos (by simp), List.takeWhile_append_of_pos hne,
    List.dropWhile_append_of_pos hne]
  simp

end Python

namespace Zyntry

open Python

export Base64 (Bytes)

/-! ## AES-GCM -/

/-- The cipher, by key, nonce and data. A ciphertext ends in its tag. -/
structure AesGcm where
  encrypt : Bytes → Bytes → Bytes → Bytes
  decrypt : Bytes → Bytes → Bytes → Option Bytes

def keySize : ℕ := 32

def tagSize : ℕ := 16

def ivSize : ℕ := 12

/-- What is encrypted is read back under the same key and nonce. -/
structure AesGcm.Lawful (aead : AesGcm) : Prop where
  decrypt_encrypt : ∀ key iv data, key.length = keySize → iv.length = ivSize →
    aead.decrypt key iv (aead.encrypt key iv data) = some data

/-- A key that `AESGCM` takes. -/
abbrev EncryptionKey := {key : Bytes // key.length = keySize}

/-- The outcome of `os.urandom(12)`. -/
abbrev Nonce := {iv : Bytes // iv.length = ivSize}

/-- A `ValueError`; the decoder of UTF-8 raises one of its own. -/
inductive SecretError where
  | valueError (message : String)
  | unicodeDecode
deriving DecidableEq, Repr

/-! ## The secret manager -/

/-- The secret manager; the key provider derives its key to the right length. -/
structure SecretManager where
  aead : AesGcm
  masterKey : EncryptionKey

def valuePrefix : String := "ENCV1"

def utf8 (s : String) : Bytes := s.toUTF8.data.toList

def decodeUtf8 (bytes : Bytes) : Option String := String.fromUTF8? ⟨bytes.toArray⟩

/-- `b64encode`, as text. -/
def base64Text (bytes : Bytes) : List Char := Base64.encode bytes

def base64Bytes (text : List Char) : Except SecretError Bytes :=
  (Base64.decode text).mapError fun _ => .valueError "Invalid ciphertext encoding"

namespace SecretManager

variable (manager : SecretManager)

/-- `_normalize_key`. -/
def normalizeKey : Option Bytes → Except SecretError EncryptionKey
  | none => .ok manager.masterKey
  | some key =>
      if h : key.length = keySize then .ok ⟨key, h⟩
      else .error (.valueError "Encryption key must be 32 bytes for AES-256")

/-- `":".join` of the four parts. -/
def joinParts (iv tag ciphertext : Bytes) : String :=
  String.ofList (valuePrefix.toList ++ ':' :: (base64Text iv ++ ':' :: (base64Text tag ++
    ':' :: base64Text ciphertext)))

/-- `encrypt`, given its nonce. -/
def encrypt (plaintext : String) (key : Option Bytes) (iv : Nonce) : Except SecretError String := do
  let normalizedKey ← manager.normalizeKey key
  let ciphertextWithTag := manager.aead.encrypt normalizedKey.1 iv.1 (utf8 plaintext)
  let tag := ciphertextWithTag.drop (ciphertextWithTag.length - tagSize)
  let ciphertext := ciphertextWithTag.take (ciphertextWithTag.length - tagSize)
  return joinParts iv.1 tag ciphertext

/-- `decrypt`. -/
def decrypt (ciphertext : String) (key : Option Bytes) : Except SecretError String := do
  let normalizedKey ← manager.normalizeKey key
  raiseIf (startsWith ciphertext (valuePrefix ++ ":") = false)
    (.valueError "Invalid ciphertext format")
  match splitMax ':' 3 ciphertext.toList with
  | [_, iv64, tag64, ct64] =>
      let iv ← base64Bytes iv64
      let tag ← base64Bytes tag64
      let ciphertextBytes ← base64Bytes ct64
      raiseIf (iv.length ≠ ivSize) (.valueError "Invalid IV length")
      match manager.aead.decrypt normalizedKey.1 iv (ciphertextBytes ++ tag) with
      | none => .error (.valueError "Failed to decrypt value")
      | some plaintext =>
          match decodeUtf8 plaintext with
          | none => .error .unicodeDecode
          | some text => return text
  | _ => .error (.valueError "Invalid ciphertext format")

/-- `rotate`. -/
def rotate (ciphertext : String) (oldKey newKey : Bytes) (iv : Nonce) :
    Except SecretError String := do
  raiseIf (oldKey.length ≠ keySize ∨ newKey.length ≠ keySize)
    (.valueError "Encryption keys must be 32 bytes for AES-256")
  let plaintext ← manager.decrypt ciphertext (some oldKey)
  manager.encrypt plaintext (some newKey) iv

end SecretManager

/-! ## Reading back -/

theorem decodeUtf8_utf8 (s : String) : decodeUtf8 (utf8 s) = some s := by
  have hbytes : (⟨(utf8 s).toArray⟩ : ByteArray) = s.toByteArray := by
    simp [utf8]
  rw [decodeUtf8, hbytes, String.fromUTF8?, dif_pos s.isValidUTF8]
  rfl

theorem base64Bytes_base64Text (bytes : Bytes) : base64Bytes (base64Text bytes) = .ok bytes := by
  rw [base64Bytes, base64Text, Base64.decode_encode]
  rfl

theorem colon_notMem_base64Text (bytes : Bytes) : ':' ∉ base64Text bytes := by
  intro h
  exact absurd (Base64.isDigit_of_mem_encode h) (by decide +kernel)

theorem colon_notMem_valuePrefix : ':' ∉ valuePrefix.toList := by
  decide +kernel

namespace SecretManager

variable {manager : SecretManager}

theorem splitMax_joinParts (iv tag ciphertext : Bytes) :
    splitMax ':' 3 (joinParts iv tag ciphertext).toList =
      [valuePrefix.toList, base64Text iv, base64Text tag, base64Text ciphertext] := by
  rw [joinParts, String.toList_ofList, splitMax_append colon_notMem_valuePrefix,
    splitMax_append (colon_notMem_base64Text iv), splitMax_append (colon_notMem_base64Text tag),
    splitMax]

theorem startsWith_joinParts (iv tag ciphertext : Bytes) :
    startsWith (joinParts iv tag ciphertext) (valuePrefix ++ ":") = true := by
  rw [startsWith, joinParts, String.toList_ofList, String.toList_append,
    List.isPrefixOf_iff_prefix, List.append_cons]
  exact List.prefix_append _ _

theorem normalizeKey_some (key : EncryptionKey) :
    manager.normalizeKey (some key.1) = .ok key := by
  rw [normalizeKey, dif_pos key.2]

theorem encrypt_some_eq (plaintext : String) (key : EncryptionKey) (iv : Nonce) :
    ∃ tag ciphertext, ciphertext ++ tag = manager.aead.encrypt key.1 iv.1 (utf8 plaintext) ∧
      manager.encrypt plaintext (some key.1) iv = .ok (joinParts iv.1 tag ciphertext) := by
  rw [encrypt, normalizeKey_some]
  exact ⟨_, _, List.take_append_drop _ _, rfl⟩

theorem decrypt_joinParts {key : EncryptionKey} {iv : Nonce} {tag ciphertext : Bytes}
    {plaintext : String}
    (h : manager.aead.decrypt key.1 iv.1 (ciphertext ++ tag) = some (utf8 plaintext)) :
    manager.decrypt (joinParts iv.1 tag ciphertext) (some key.1) = .ok plaintext := by
  have hlength : ¬iv.1.length ≠ ivSize := fun hne => hne iv.2
  rw [decrypt, normalizeKey_some, startsWith_joinParts, splitMax_joinParts]
  simp only [base64Bytes_base64Text, raiseIf, bind, Except.bind, if_neg hlength, h,
    decodeUtf8_utf8]
  rfl

/-- A stored value is a text that carries the prefix and that the key reads as the plaintext. -/
structure Stores (manager : SecretManager) (key : EncryptionKey) (plaintext stored : String) :
    Prop where
  prefixed : startsWith stored (valuePrefix ++ ":") = true
  reads : manager.decrypt stored (some key.1) = .ok plaintext

theorem stores_encrypt (hlawful : manager.aead.Lawful) (plaintext : String)
    (key : EncryptionKey) (iv : Nonce) :
    ∃ stored, manager.encrypt plaintext (some key.1) iv = .ok stored ∧
      manager.Stores key plaintext stored := by
  obtain ⟨tag, ciphertext, hdata, hencrypt⟩ := manager.encrypt_some_eq plaintext key iv
  refine ⟨_, hencrypt, startsWith_joinParts .., ?_⟩
  apply decrypt_joinParts
  rw [hdata, hlawful.decrypt_encrypt _ _ _ key.2 iv.2]

/-- One rotation of a stored value moves it to the new key, or fails for the length of that key. -/
theorem rotate_stores (hlawful : manager.aead.Lawful) {key : EncryptionKey}
    {plaintext stored : String} (h : manager.Stores key plaintext stored) (newKey : Bytes)
    (iv : Nonce) :
    if hlength : newKey.length = keySize then
      ∃ rotated, manager.rotate stored key.1 newKey iv = .ok rotated ∧
        manager.Stores ⟨newKey, hlength⟩ plaintext rotated
    else ∃ error, manager.rotate stored key.1 newKey iv = .error error := by
  split
  case isTrue hlength =>
    obtain ⟨rotated, hencrypt, hstores⟩ := stores_encrypt hlawful plaintext ⟨newKey, hlength⟩ iv
    refine ⟨rotated, ?_, hstores⟩
    rw [rotate, h.reads, raiseIf, if_neg (by simp [key.2, hlength])]
    exact hencrypt
  case isFalse hlength =>
    use .valueError "Encryption keys must be 32 bytes for AES-256"
    rw [rotate, raiseIf, if_pos (.inr hlength)]
    rfl

/-- A value is rotated from key to key, each time with a fresh nonce. -/
def rotateAll (manager : SecretManager) (stored : String) (key : Bytes) :
    List (Bytes × Nonce) → Except SecretError String
  | [] => .ok stored
  | (newKey, iv) :: rest => do
      let rotated ← manager.rotate stored key newKey iv
      rotateAll manager rotated newKey rest

/-- The key that the last rotation left the value under. -/
def lastKey (key : Bytes) : List (Bytes × Nonce) → Bytes
  | [] => key
  | (newKey, _) :: rest => lastKey newKey rest

theorem rotateAll_stores (hlawful : manager.aead.Lawful) {plaintext : String}
    (rotations : List (Bytes × Nonce)) :
    ∀ {key : EncryptionKey} {stored : String}, manager.Stores key plaintext stored →
      if ∀ r ∈ rotations, r.1.length = keySize then
        ∃ final, manager.rotateAll stored key.1 rotations = .ok final ∧
          startsWith final (valuePrefix ++ ":") = true ∧
          manager.decrypt final (some (lastKey key.1 rotations)) = .ok plaintext
      else ∃ error, manager.rotateAll stored key.1 rotations = .error error := by
  induction rotations with
  | nil =>
    intro key stored h
    rw [if_pos (by simp)]
    exact ⟨stored, rfl, h.prefixed, h.reads⟩
  | cons rotation rest ih =>
    obtain ⟨newKey, iv⟩ := rotation
    intro key stored h
    have hstep := rotate_stores hlawful h newKey iv
    by_cases hlength : newKey.length = keySize
    · rw [dif_pos hlength] at hstep
      obtain ⟨rotated, hrotate, hstores⟩ := hstep
      have hrest := ih hstores
      simp only [List.forall_mem_cons, hlength, true_and, rotateAll, hrotate]
      exact hrest
    · rw [dif_neg hlength] at hstep
      obtain ⟨error, hrotate⟩ := hstep
      simp only [List.forall_mem_cons, hlength, false_and, if_false, rotateAll, hrotate]
      exact ⟨error, rfl⟩

/-- A cipher whose tag is the first half of its key. -/
def keyTagged : AesGcm where
  encrypt key _ data := data ++ key.take tagSize
  decrypt key _ data :=
    if data.drop (data.length - tagSize) = key.take tagSize then
      some (data.take (data.length - tagSize))
    else none

theorem keyTagged_lawful : keyTagged.Lawful where
  decrypt_encrypt key iv data hkey _ := by
    simp [keyTagged, hkey, keySize, tagSize]

end SecretManager

end Zyntry
